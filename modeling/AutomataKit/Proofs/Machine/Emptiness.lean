import AutomataKit.Proofs.Dfa.ShortWords
import AutomataKit.Proofs.Machine.Decision

/-!
# Emptiness and the machine

What the machine of an automaton accepts is a text of the automaton, cut off before its first blank
(`Dfa.accepted_run_of_accepted_simulate`). So where the search finds no accepting state the machine
accepts nothing, with any bound on its steps. Where it finds one, and every symbol is a single
character, some text shorter than the number of states is accepted, and the machine needs no more
steps for it than there are states (`Dfa.isEmpty_simulate_toMachine`).
-/

namespace AutomataKit

namespace Dfa

variable {dfa : Dfa}

/-- Where the machine accepts, the automaton accepts what stands before the first blank. -/
theorem accepted_run_of_accepted_simulate {text : String} {maxSteps : Int}
    (accepted : (dfa.toMachine.simulate text maxSteps).accepted = true) :
    (dfa.run (dfa.legible text)).accepted = true := by
  have outcome : (dfa.toMachine.simulate text maxSteps).outcome = .accept :=
    of_decide_eq_true accepted
  rcases lt_or_ge ((dfa.run (dfa.legible text)).path.length : Int) maxSteps with enough | short
  · cases stopped : (dfa.run (dfa.legible text)).rejection with
    | some rejection =>
      rw [(simulate_toMachine_of_stopped enough stopped).1] at outcome
      cases outcome
    | none =>
      rw [(simulate_toMachine_of_read enough stopped).1] at outcome
      split at outcome
      · assumption
      · cases outcome
  · rw [(simulate_toMachine_of_le short).1] at outcome
    cases outcome

/-- A text that the automaton accepts has no blank in it. -/
theorem legible_of_accepted {text : String} (accepted : (dfa.run text).accepted = true) :
    dfa.legible text = text := by
  rcases dfa.legible_eq_or_blank text with whole | ⟨blank, after, single, split⟩
  · exact whole
  · rw [split, accepted_run_of_blank single] at accepted
    cases accepted

/-- A text that the automaton accepts is accepted by the machine, given a step for each character
and one more. -/
theorem outcome_of_accepted_run {text : String} {maxSteps : Int}
    (accepted : (dfa.run text).accepted = true) (enough : (text.length : Int) + 1 ≤ maxSteps) :
    (dfa.toMachine.simulate text maxSteps).outcome = .accept := by
  have same : (dfa.toMachine.simulate text maxSteps).accepted =
      (dfa.run (dfa.legible text)).accepted := (accepted_simulate_toMachine enough).2
  rw [legible_of_accepted accepted, accepted] at same
  exact of_decide_eq_true same

/-- When every symbol is a single character and the language is not empty, a text shorter than the
number of states is accepted. -/
theorem exists_short_text (single : ∀ symbol ∈ dfa.alphabet, symbol.length = 1)
    (nonempty : dfa.isEmpty = false) :
    ∃ text : String, text.length < dfa.states.length ∧ (dfa.run text).accepted = true := by
  obtain ⟨word, bounded, accepting⟩ := isEmpty_eq_false_iff_short.mp nonempty
  have singles : ∀ symbol ∈ word, (dfa.label symbol).length = 1 := fun symbol _ =>
    single _ (List.getElem_mem symbol.isLt)
  obtain ⟨text, spelled⟩ := exists_text_of_single singles
  have length : word.length = text.length := by
    have lengths := congrArg List.length spelled
    rwa [spell, List.length_map, List.length_map, String.length_toList] at lengths
  exact ⟨text, length ▸ bounded, (accepted_run_iff text).mpr ⟨word, spelled, accepting⟩⟩

variable (dfa) in
/-- **The search and the machine agree.** When the search finds no accepting state, the machine
accepts no text with any bound. When it finds one and every symbol is a single character, some text
shorter than the number of states is accepted by the automaton, and by the machine within as many
steps as there are states. -/
theorem isEmpty_simulate_toMachine :
    (dfa.isEmpty = true → ∀ (text : String) (maxSteps : Int),
      (dfa.toMachine.simulate text maxSteps).accepted = false) ∧
    ((∀ symbol ∈ dfa.alphabet, symbol.length = 1) → dfa.isEmpty = false →
      ∃ text : String, text.length < dfa.states.length ∧ (dfa.run text).accepted = true ∧
        (dfa.toMachine.simulate text dfa.states.length).outcome = .accept) := by
  refine ⟨?_, ?_⟩
  · intro empty text maxSteps
    apply Bool.eq_false_iff.mpr
    intro accepted
    have found := accepted_run_of_accepted_simulate accepted
    rw [accepted_run_of_isEmpty empty] at found
    cases found
  · intro single nonempty
    obtain ⟨text, bounded, accepted⟩ := exists_short_text single nonempty
    exact ⟨text, bounded, accepted, outcome_of_accepted_run accepted (by omega)⟩

/-- Three states in a row, listed from the last, which accepts, and one symbol of one character. -/
def relay : Dfa where
  states := ["third", "second", "first"]
  alphabet := ["n"]
  table := #v[#v[0], #v[0], #v[1]]
  start := 2
  accepting := #v[true, false, false]
  states_nodup := by decide
  alphabet_nodup := by decide

/-- The same states and transitions, but no state accepts. -/
def idleRelay : Dfa := { relay with accepting := #v[false, false, false] }

/-- In the row as many steps as there are states are needed: with two steps the machine comes to no
decision. -/
theorem isEmpty_relay :
    (∀ symbol ∈ relay.alphabet, symbol.length = 1) ∧ relay.isEmpty = false ∧
      (∃ text : String, text.length < 3 ∧ (relay.run text).accepted = true ∧
        (relay.toMachine.simulate text 3).outcome = .accept) ∧
      (relay.toMachine.simulate "nn" 2).outcome = .stepLimit ∧
      idleRelay.isEmpty = true ∧ (idleRelay.toMachine.simulate "nn" 1000).accepted = false := by
  have single : ∀ symbol ∈ relay.alphabet, symbol.length = 1 := by decide
  have nonempty : relay.isEmpty = false :=
    isEmpty_eq_false_iff_short.mpr ⟨[⟨0, Nat.zero_lt_one⟩, ⟨0, Nat.zero_lt_one⟩], by decide, rfl⟩
  have empty : idleRelay.isEmpty = true := rfl
  refine ⟨single, nonempty, relay.isEmpty_simulate_toMachine.2 single nonempty, ?_, empty,
    idleRelay.isEmpty_simulate_toMachine.1 empty "nn" 1000⟩
  decide +kernel

end Dfa

end AutomataKit
