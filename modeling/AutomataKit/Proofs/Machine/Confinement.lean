import AutomataKit.Proofs.Machine.TapeLookups
import AutomataKit.Proofs.Machine.TrailingBlanks

/-!
# The head stays next to the window

Whatever a machine does, at each recorded moment the head is on a stored cell or next to the stored
cells, of which there is always one (`Configuration.Docked`). So a step has to store one more cell
at most, the one that is scanned, and no other cell changes (`Configuration.Writes`). Nothing that
is not stored is ever read or written (`TuringMachine.simulate_docked`).
-/

namespace AutomataKit

namespace Configuration

/-- Some cell is stored, and the head is on a stored cell or next to the first or the last one. -/
structure Docked (configuration : Configuration) : Prop where
  tape_ne_nil : configuration.tape ≠ []
  head_ge : -1 ≤ configuration.head
  head_le : configuration.head ≤ configuration.tape.length

/-- The tape after a symbol is written under the head. -/
inductive Writes (before : Configuration) : List String → Prop
  /-- The tape gains a cell on the left. -/
  | left (outside : before.head = -1) (symbol : String) : before.Writes (symbol :: before.tape)
  /-- The tape gains a cell on the right. -/
  | right (outside : before.head = before.tape.length) (symbol : String) :
    before.Writes (before.tape ++ [symbol])
  | inside {place : Nat} (under : before.head = place) (stored : place < before.tape.length)
    (symbol : String) : before.Writes (before.tape.set place symbol)

namespace Writes

variable {before : Configuration} {tape : List String}

/-- Writing a symbol adds one cell at most. -/
theorem length_le (writes : before.Writes tape) : tape.length ≤ before.tape.length + 1 := by
  cases writes with
  | left outside symbol => exact Nat.le_of_eq (List.length_cons ..)
  | right outside symbol => exact Nat.le_of_eq (List.length_append ..)
  | inside under stored symbol =>
    rw [List.length_set]
    exact Nat.le_succ _

/-- Writing a symbol takes no cell away. -/
theorem ne_nil (writes : before.Writes tape) (stored : before.tape ≠ []) : tape ≠ [] := by
  cases writes with
  | left outside symbol => exact List.cons_ne_nil symbol _
  | right outside symbol => exact List.append_ne_nil_of_right_ne_nil _ (List.cons_ne_nil symbol [])
  | inside under inside symbol => rwa [Ne, List.set_eq_nil_iff]

end Writes

end Configuration

/-- Whichever cell is scanned, a transition writes under the head. -/
theorem Strip.writes_after (strip : Strip) (blank : String) (transition : Transition) :
    strip.configuration.Writes (Strip.after (strip.scan blank) transition).cells := by
  have lower := strip.head_ge
  have upper := strip.head_le
  change strip.configuration.Writes ((strip.scan blank).cells.set _ transition.write)
  unfold scan
  by_cases before : strip.head < 0
  · rw [dif_pos before]
    exact .left (by change strip.head = -1; omega) transition.write
  · rw [dif_neg before]
    by_cases behind : (strip.cells.length : Int) ≤ strip.head
    · have last : strip.head.toNat = strip.cells.length := by omega
      rw [dif_pos behind]
      simp only [last, List.set_append_right _ _ (Nat.le_refl _), Nat.sub_self]
      exact .right (by change strip.head = strip.cells.length; omega) transition.write
    · have under : strip.configuration.head = strip.head.toNat := by
        change strip.head = _
        omega
      rw [dif_neg behind]
      exact .inside under (by change strip.head.toNat < strip.cells.length; omega) transition.write

namespace TuringMachine

variable {machine : TuringMachine} {instant onward : Instant} {strip : Strip}

/-- A step of the simulation is a step of the strip that it shows. -/
theorem Shows.exists_stripStep? (shows : machine.Shows instant strip)
    (moved : machine.step? instant = some onward) :
    ∃ next, machine.stripStep? strip = some next ∧ machine.Shows onward next := by
  have step := shows.step?
  cases stepped : machine.stripStep? strip with
  | none =>
    rw [stepped, moved] at step
    cases step
  | some next =>
    rw [stepped, moved] at step
    obtain ⟨_, ⟨⟩, shown⟩ := step
    exact ⟨next, rfl, shown⟩

/-- A step writes one symbol, under the head. -/
theorem writes_of_stripStep? {next : Strip} (moved : machine.stripStep? strip = some next) :
    strip.configuration.Writes next.cells := by
  obtain ⟨transition, -, rfl⟩ := Option.map_eq_some_iff.mp moved
  exact strip.writes_after machine.blank transition

/-! ## The moments of a run -/

/-- At first there is a cell for each character, and at least one. -/
theorem length_tape_initial (input : String) :
    (machine.initial input).configuration.tape.length = max input.length 1 := by
  have length : ((machine.initial input).configuration.tape.length : Int) = _ :=
    (machine.initial input).tape.length_cells
  have stop := machine.stop_initial input
  have start : (machine.initial input).tape.start = 0 := rfl
  rw [String.length_toList] at stop
  omega

/-- **The head stays docked.** Every moment of a run shows a strip, and a step stores what it scans.
-/
theorem exists_shows_moment (input : String) (count : Nat) :
    ∃ strip, machine.Shows (machine.moment (machine.initial input) count) strip ∧
      strip.cells ≠ [] := by
  induction count with
  | zero =>
    have shows := machine.shows_initial input
    refine ⟨_, shows, List.ne_nil_of_length_pos ?_⟩
    rw [← shows.cells_eq]
    exact Nat.lt_of_lt_of_le Nat.one_pos (length_tape_initial input ▸ Nat.le_max_right _ 1)
  | succ count ih =>
    obtain ⟨strip, shows, stored⟩ := ih
    rw [moment_succ]
    unfold proceed
    split
    · exact ⟨strip, shows, stored⟩
    · cases moved : machine.step? (machine.moment (machine.initial input) count) with
      | none => exact ⟨strip, shows, stored⟩
      | some onward =>
        obtain ⟨next, stepped, shown⟩ := shows.exists_stripStep? moved
        exact ⟨next, shown, (writes_of_stripStep? stepped).ne_nil stored⟩

/-- At every moment the head is next to the stored cells. -/
theorem docked_moment (input : String) (count : Nat) :
    (machine.moment (machine.initial input) count).configuration.Docked := by
  obtain ⟨strip, shows, stored⟩ := machine.exists_shows_moment input count
  rw [shows.configuration_eq]
  exact ⟨stored, strip.head_ge, strip.head_le⟩

/-- Where a run goes on, the next tape is the tape with a symbol written under the head. -/
theorem writes_moment {input : String} {count : Nat}
    (going : ¬ machine.Stopped (machine.moment (machine.initial input) count)) :
    (machine.moment (machine.initial input) count).configuration.Writes
      (machine.moment (machine.initial input) (count + 1)).configuration.tape := by
  obtain ⟨halts, stuck⟩ := not_or.mp going
  obtain ⟨onward, moved⟩ := Option.ne_none_iff_exists'.mp stuck
  obtain ⟨strip, shows, -⟩ := machine.exists_shows_moment input count
  obtain ⟨next, stepped, shown⟩ := shows.exists_stripStep? moved
  rw [moment_succ, proceed_of_some halts moved, shown.configuration_eq, shows.configuration_eq]
  exact writes_of_stripStep? stepped

/-! ## Records -/

/-- From one recorded moment to the next one symbol is written. -/
theorem Recorded.writes {input : String} {bound : Nat} {record : Simulation}
    (recorded : machine.Recorded (machine.initial input) bound record) {count : Nat}
    (later : count + 1 < record.configurations.length) :
    record.configurations[count].Writes record.configurations[count + 1].tape := by
  have before : count < record.steps := by
    rw [recorded.length_configurations] at later
    exact Nat.lt_of_succ_lt_succ later
  rw [recorded.getElem_configurations, recorded.getElem_configurations]
  exact writes_moment (recorded.going count before)

/-- At every recorded moment the tape has grown by at most one cell for each step. -/
theorem Recorded.length_tape_le {input : String} {bound : Nat} {record : Simulation}
    (recorded : machine.Recorded (machine.initial input) bound record) {count : Nat}
    (inside : count < record.configurations.length) :
    record.configurations[count].tape.length ≤ max input.length 1 + count := by
  induction count with
  | zero =>
    rw [recorded.getElem_configurations]
    exact Nat.le_of_eq (length_tape_initial input)
  | succ count ih =>
    have grown := (recorded.writes inside).length_le
    have before := ih (Nat.lt_of_succ_lt inside)
    omega

/-- **A simulation keeps to its window.** With every look-up at risk it fails nowhere. -/
theorem simulate_docked (machine : TuringMachine) (input : String) (maxSteps : Int) :
    let record := machine.simulate input maxSteps
    machine.simulateByIndex input maxSteps = .ok record ∧
      (∀ configuration ∈ record.configurations, configuration.Docked) ∧
      (∀ (count : Nat) (later : count + 1 < record.configurations.length),
        record.configurations[count].Writes record.configurations[count + 1].tape) ∧
      ∀ (count : Nat) (inside : count < record.configurations.length),
        record.configurations[count].tape.length ≤ max input.length 1 + count := by
  intro record
  have recorded : machine.Recorded (machine.initial input) maxSteps.toNat record :=
    machine.recorded_simulateFrom _ _
  refine ⟨machine.simulateByIndex_eq_ok input maxSteps, ?_, fun _ => recorded.writes,
    fun _ => recorded.length_tape_le⟩
  intro configuration member
  rw [recorded.configurations_eq] at member
  obtain ⟨count, -, rfl⟩ := List.mem_map.mp member
  exact docked_moment input count

/-- Twice the head leaves its tape to the left, which then grows there and not on the right. -/
theorem simulate_leftward_docked :
    leftward.simulateByIndex "a" 3 = .ok (leftward.simulate "a" 3) ∧
      (⟨"go", ["b"], -1⟩ : Configuration).Docked ∧
      (⟨"go", ["b"], -1⟩ : Configuration).Writes ["c", "b"] ∧
      ["c", "b"].length ≤ max "a".length 1 + 2 := by
  have record : leftward.simulate "a" 3 =
      ⟨[⟨"go", ["a"], 0⟩, ⟨"go", ["b"], -1⟩, ⟨"back", ["c", "b"], 1⟩], 2, .reject⟩ := by
    decide +kernel
  obtain ⟨looked, docked, writes, length⟩ := leftward.simulate_docked "a" 3
  simp only [record] at docked writes length
  exact ⟨looked, docked _ (by decide), writes 1 (by decide), length 2 (by decide)⟩

end TuringMachine

end AutomataKit
