import AutomataKit.Proofs.Machine.Simulation
import Mathlib.Logic.Function.Iterate

/-!
# Runs without a bound

A machine goes from moment to moment until it stops: in a halting state, or where it has no
transition. `TuringMachine.moment` counts the moments of a run from `0` on, and stays with the last
when there is one. A bound only says how many of them are recorded: a simulation records the first
moments of the run, one after each step, and ends because the machine stopped or because the bound
was reached (`TuringMachine.recorded_simulateFrom`).
-/

namespace AutomataKit

namespace TuringMachine

variable (machine : TuringMachine)

/-- No step follows: the machine has halted, or it has no transition. -/
def Stopped (instant : Instant) : Prop :=
  machine.Halting instant.state ∨ machine.step? instant = none

/-- The next moment of a run. A machine that has stopped stays where it is. -/
def proceed (instant : Instant) : Instant :=
  if machine.Halting instant.state then instant else (machine.step? instant).getD instant

/-- The moment that a number of steps after the given one is reached. -/
def moment (instant : Instant) (count : Nat) : Instant := machine.proceed^[count] instant

/-- A simulation with a bound records the run from some moment on. -/
structure Recorded (instant : Instant) (bound : Nat) (record : Simulation) : Prop where
  steps_le : record.steps ≤ bound
  configurations_eq : record.configurations =
    (List.range (record.steps + 1)).map fun count =>
      (machine.moment instant count).configuration
  /-- Before its last moment the machine did not stop. -/
  going : ∀ count < record.steps, ¬ machine.Stopped (machine.moment instant count)
  ended : record.steps = bound ∨ machine.Stopped (machine.moment instant record.steps)
  outcome_eq : record.outcome =
    let last := machine.moment instant record.steps
    if machine.Halting last.state then machine.verdict last.state
    else if machine.step? last = none ∧ record.steps < bound then machine.verdict machine.reject
    else .stepLimit

variable {machine} {instant : Instant}

theorem proceed_of_some (going : ¬ machine.Halting instant.state) {onward : Instant}
    (moved : machine.step? instant = some onward) : machine.proceed instant = onward := by
  rw [proceed, if_neg going, moved, Option.getD_some]

theorem moment_succ_of_some (going : ¬ machine.Halting instant.state) {onward : Instant}
    (moved : machine.step? instant = some onward) (count : Nat) :
    machine.moment instant (count + 1) = machine.moment onward count := by
  rw [moment, Function.iterate_succ_apply, proceed_of_some going moved]
  rfl

/-- The last of so many steps comes after all the others. -/
theorem moment_succ (count : Nat) :
    machine.moment instant (count + 1) = machine.proceed (machine.moment instant count) :=
  Function.iterate_succ_apply' machine.proceed count instant

theorem Recorded.length_configurations {bound : Nat} {record : Simulation}
    (recorded : machine.Recorded instant bound record) :
    record.configurations.length = record.steps + 1 := by
  rw [recorded.configurations_eq, List.length_map, List.length_range]

theorem Recorded.getElem_configurations {bound : Nat} {record : Simulation}
    (recorded : machine.Recorded instant bound record) {count : Nat}
    (inside : count < record.configurations.length) :
    record.configurations[count] = (machine.moment instant count).configuration := by
  simp only [recorded.configurations_eq, List.getElem_map, List.getElem_range]

/-- A run that stops at once is recorded by its first moment. -/
theorem recorded_of_stopped (stopped : machine.Stopped instant) (bound : Nat) (outcome : Outcome)
    (verdict : outcome = if machine.Halting instant.state then machine.verdict instant.state
      else if machine.step? instant = none ∧ 0 < bound then machine.verdict machine.reject
      else .stepLimit) :
    machine.Recorded instant bound ⟨[instant.configuration], 0, outcome⟩ where
  steps_le := Nat.zero_le bound
  configurations_eq := rfl
  going := by
    intro count before
    cases before
  ended := .inr stopped
  outcome_eq := verdict

/-- A run that makes a step is recorded by its first moment and the record of what follows. -/
theorem recorded_of_step (going : ¬ machine.Halting instant.state) {onward : Instant}
    (moved : machine.step? instant = some onward) {bound : Nat} {rest : Simulation}
    (recorded : machine.Recorded onward bound rest) :
    machine.Recorded instant (bound + 1)
      ⟨instant.configuration :: rest.configurations, rest.steps + 1, rest.outcome⟩ := by
  have later := moment_succ_of_some going moved
  refine ⟨Nat.succ_le_succ recorded.steps_le, ?_, ?_, ?_, ?_⟩
  · change _ :: _ = List.map _ (List.range (_ + 1 + 1))
    rw [List.range_succ_eq_map, List.map_cons, List.map_map, recorded.configurations_eq]
    refine congrArg _ (List.map_congr_left fun count _ => ?_)
    exact congrArg Instant.configuration (later count).symm
  · intro count before
    cases count with
    | zero =>
      rintro (stops | stuck)
      · exact going stops
      · rw [show machine.moment instant 0 = instant from rfl, moved] at stuck
        cases stuck
    | succ count =>
      rw [later]
      exact recorded.going count (Nat.lt_of_succ_lt_succ before)
  · simp only [later]
    exact recorded.ended.imp_left (congrArg Nat.succ)
  · simp only [later, Nat.add_lt_add_iff_right]
    exact recorded.outcome_eq

variable (machine instant)

/-- **What a bound leaves of a run.** -/
theorem recorded_simulateFrom (bound : Nat) :
    machine.Recorded instant bound (machine.simulateFrom bound instant) := by
  induction bound generalizing instant with
  | zero =>
    by_cases halting : machine.Halting instant.state
    · rw [simulateFrom_of_halting halting]
      exact recorded_of_stopped (.inl halting) 0 _ (if_pos halting).symm
    · rw [simulateFrom_zero halting]
      refine ⟨Nat.le_refl 0, rfl, ?_, .inl rfl, ?_⟩
      · intro count before
        cases before
      · change _ = if machine.Halting instant.state then _ else _
        rw [if_neg halting, if_neg fun short => Nat.lt_irrefl 0 short.2]
  | succ bound ih =>
    by_cases halting : machine.Halting instant.state
    · rw [simulateFrom_of_halting halting]
      exact recorded_of_stopped (.inl halting) _ _ (if_pos halting).symm
    · cases stepped : machine.step? instant with
      | none =>
        rw [simulateFrom_succ_of_none halting stepped]
        refine recorded_of_stopped (.inr stepped) _ _ ?_
        rw [if_neg halting, if_pos ⟨stepped, Nat.succ_pos bound⟩]
      | some onward =>
        rw [simulateFrom_succ_of_some halting stepped]
        exact recorded_of_step halting stepped (ih onward)

end TuringMachine

end AutomataKit
