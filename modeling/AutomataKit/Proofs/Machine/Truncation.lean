import AutomataKit.Proofs.Machine.EndlessTape

/-!
# Simulations under different bounds

A run has one record for each bound (`TuringMachine.Recorded.unique`). A record that ended for
another reason than its bound is the record under every larger one
(`TuringMachine.Recorded.of_le`), and a record that was cut short is the beginning of the record
under a larger bound (`TuringMachine.simulate_of_le`).
-/

namespace AutomataKit

namespace TuringMachine

variable {machine : TuringMachine} {instant : Instant}

theorem verdict_ne_stepLimit (state : String) : machine.verdict state ≠ .stepLimit := by
  unfold verdict
  split
  · exact nofun
  · exact nofun

namespace Recorded

variable {bound shorter longer : Nat} {record cut full : Simulation}

/-- The outcome is the step limit when all steps were made and the machine has not halted. Whether
it has a transition then is not looked up. -/
theorem outcome_eq_stepLimit_iff (recorded : machine.Recorded instant bound record) :
    record.outcome = .stepLimit ↔
      record.steps = bound ∧ ¬ machine.Halting (machine.moment instant record.steps).state := by
  have outcome := recorded.outcome_eq
  simp only at outcome
  by_cases halting : machine.Halting (machine.moment instant record.steps).state
  · rw [outcome, if_pos halting]
    exact iff_of_false (verdict_ne_stepLimit _) fun limit => limit.2 halting
  · rw [if_neg halting] at outcome
    by_cases room : record.steps < bound
    · have stuck := recorded.ended.resolve_left (Nat.ne_of_lt room)
      rw [outcome, if_pos ⟨stuck.resolve_left halting, room⟩]
      exact iff_of_false (verdict_ne_stepLimit _) fun limit => Nat.ne_of_lt room limit.1
    · rw [outcome, if_neg fun stuck => room stuck.2]
      have all : record.steps = bound := Nat.le_antisymm recorded.steps_le (Nat.le_of_not_lt room)
      exact iff_of_true rfl ⟨all, halting⟩

/-- A larger bound allows at least as many steps, and no further ones after the machine stopped. -/
theorem steps_eq_min (first : machine.Recorded instant shorter cut)
    (second : machine.Recorded instant longer full) (within : shorter ≤ longer) :
    cut.steps = min full.steps shorter := by
  have fewer : cut.steps ≤ full.steps := by
    refine Nat.le_of_not_lt fun beyond => ?_
    have before : full.steps ≠ longer :=
      Nat.ne_of_lt (beyond.trans_le (first.steps_le.trans within))
    exact first.going full.steps beyond (second.ended.resolve_left before)
  rcases first.ended with all | stopped
  · rw [← all, Nat.min_eq_right fewer]
  · have same : full.steps = cut.steps :=
      Nat.le_antisymm (Nat.le_of_not_lt fun later => second.going cut.steps later stopped) fewer
    rw [same, Nat.min_eq_left first.steps_le]

theorem configurations_eq_take (first : machine.Recorded instant shorter cut)
    (second : machine.Recorded instant longer full) (within : shorter ≤ longer) :
    cut.configurations = full.configurations.take (cut.steps + 1) := by
  have fewer : cut.steps + 1 ≤ full.steps + 1 := by
    rw [first.steps_eq_min second within]
    exact Nat.succ_le_succ (Nat.min_le_left _ _)
  rw [first.configurations_eq, second.configurations_eq, ← List.map_take, List.take_range,
    Nat.min_eq_left fewer]

/-- **A run and a bound leave no choice of the record.** -/
theorem unique (first : machine.Recorded instant bound record)
    (second : machine.Recorded instant bound full) : record = full := by
  have steps : record.steps = full.steps := by
    rw [first.steps_eq_min second (Nat.le_refl bound), Nat.min_eq_left second.steps_le]
  have configurations : record.configurations = full.configurations := by
    rw [first.configurations_eq, second.configurations_eq, steps]
  have outcome : record.outcome = full.outcome := by
    rw [first.outcome_eq, second.outcome_eq, steps]
  cases record
  cases full
  cases configurations
  cases steps
  cases outcome
  rfl

/-- A record that was not cut short is also the record under a larger bound. -/
theorem of_le (recorded : machine.Recorded instant shorter cut) (within : shorter ≤ longer)
    (ended : cut.outcome ≠ .stepLimit) : machine.Recorded instant longer cut := by
  have stops : cut.steps < shorter ∨
      machine.Halting (machine.moment instant cut.steps).state := by
    rw [Ne, recorded.outcome_eq_stepLimit_iff, not_and_or, not_not] at ended
    exact ended.imp_left (Nat.lt_of_le_of_ne recorded.steps_le)
  refine ⟨recorded.steps_le.trans within, recorded.configurations_eq, recorded.going, .inr ?_, ?_⟩
  · rcases stops with room | halting
    · exact recorded.ended.resolve_left (Nat.ne_of_lt room)
    · exact .inl halting
  · have outcome := recorded.outcome_eq
    rcases stops with room | halting
    · simp only [room, room.trans_le within, and_true] at outcome ⊢
      exact outcome
    · simp only [halting, ↓reduceIte] at outcome ⊢
      exact outcome

end Recorded

/-- **A smaller bound only cuts a run short.** The steps and configurations are those of a larger
bound, as many as the smaller one allows. Either the run was cut, and made all these steps, or both
records are the same. -/
theorem simulate_of_le (machine : TuringMachine) (input : String) {fewer more : Int}
    (within : fewer ≤ more) :
    let cut := machine.simulate input fewer
    let full := machine.simulate input more
    cut.steps = min full.steps fewer.toNat ∧
      cut.configurations = full.configurations.take (cut.steps + 1) ∧
      (cut.outcome ≠ .stepLimit → cut = full) ∧
      (cut.outcome = .stepLimit → cut.steps = fewer.toNat) := by
  intro cut full
  have first : machine.Recorded (machine.initial input) fewer.toNat cut :=
    machine.recorded_simulateFrom _ _
  have second : machine.Recorded (machine.initial input) more.toNat full :=
    machine.recorded_simulateFrom _ _
  have bounds : fewer.toNat ≤ more.toNat := Int.toNat_le_toNat within
  refine ⟨first.steps_eq_min second bounds, first.configurations_eq_take second bounds, ?_, ?_⟩
  · intro ended
    exact (first.of_le bounds ended).unique second
  · intro limit
    exact (first.outcome_eq_stepLimit_iff.mp limit).1

/-- A cut exactly at the missing transition makes a difference to the outcome alone. -/
theorem simulate_leftward_of_le :
    (leftward.simulate "a" 2).outcome = .stepLimit ∧ (leftward.simulate "a" 3).outcome = .reject ∧
      (leftward.simulate "a" 2).steps = 2 ∧
      (leftward.simulate "a" 2).configurations = (leftward.simulate "a" 3).configurations ∧
      leftward.simulate "a" 3 = leftward.simulate "a" 1000 := by
  have limit : (leftward.simulate "a" 2).outcome = .stepLimit := by decide +kernel
  have rejects : (leftward.simulate "a" 3).outcome = .reject := by decide +kernel
  have length : (leftward.simulate "a" 3).configurations.length = 3 := by decide +kernel
  obtain ⟨-, configurations, -, steps⟩ :=
    leftward.simulate_of_le "a" (show (2 : Int) ≤ 3 by decide)
  obtain ⟨-, -, same, -⟩ := leftward.simulate_of_le "a" (show (3 : Int) ≤ 1000 by decide)
  refine ⟨limit, rejects, steps limit, ?_, same (by rw [rejects]; exact nofun)⟩
  rw [configurations, steps limit]
  exact List.take_of_length_le (Nat.le_of_eq length)

end TuringMachine

end AutomataKit
