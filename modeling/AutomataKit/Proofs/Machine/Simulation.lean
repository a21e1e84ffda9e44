import AutomataKit.Machine.Simulation

/-!
# The equations of a simulation

A simulation that goes on from some moment records that moment first. What follows depends on
whether the machine has halted, whether steps are left and whether there is a transition; each of
the four cases has its equation here.
-/

namespace AutomataKit

namespace TuringMachine

variable {machine : TuringMachine} {instant : Instant}

/-- In a halting state a simulation ends. -/
theorem simulateFrom_of_halting (halting : machine.Halting instant.state) (bound : Nat) :
    machine.simulateFrom bound instant =
      ⟨[instant.configuration], 0, machine.verdict instant.state⟩ := by
  unfold simulateFrom
  rw [if_pos halting]

/-- At the bound a simulation ends. -/
theorem simulateFrom_zero (going : ¬ machine.Halting instant.state) :
    machine.simulateFrom 0 instant = ⟨[instant.configuration], 0, .stepLimit⟩ := by
  unfold simulateFrom
  rw [if_neg going]

/-- Where the machine has no transition it rejects. -/
theorem simulateFrom_succ_of_none (going : ¬ machine.Halting instant.state)
    (stuck : machine.step? instant = none) (bound : Nat) :
    machine.simulateFrom (bound + 1) instant =
      ⟨[instant.configuration], 0, machine.verdict machine.reject⟩ := by
  unfold simulateFrom
  rw [if_neg going]
  simp only [stuck]

/-- A step is recorded before what follows it. -/
theorem simulateFrom_succ_of_some (going : ¬ machine.Halting instant.state) {onward : Instant}
    (moved : machine.step? instant = some onward) (bound : Nat) :
    machine.simulateFrom (bound + 1) instant =
      ⟨instant.configuration :: (machine.simulateFrom bound onward).configurations,
        (machine.simulateFrom bound onward).steps + 1,
        (machine.simulateFrom bound onward).outcome⟩ := by
  rw [simulateFrom, if_neg going]
  simp only [moved]

variable (machine instant)

/-- What is recorded first is the moment from which the run goes on. -/
theorem configurations_simulateFrom (bound : Nat) :
    (machine.simulateFrom bound instant).configurations =
      instant.configuration :: (machine.simulateFrom bound instant).configurations.tail := by
  by_cases halting : machine.Halting instant.state
  · rw [simulateFrom_of_halting halting]
    rfl
  · cases bound with
    | zero =>
      rw [simulateFrom_zero halting]
      rfl
    | succ bound =>
      cases stepped : machine.step? instant with
      | none =>
        rw [simulateFrom_succ_of_none halting stepped]
        rfl
      | some onward =>
        rw [simulateFrom_succ_of_some halting stepped]
        rfl

end TuringMachine

end AutomataKit
