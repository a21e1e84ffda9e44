import AutomataKit.Dfa.Description
import AutomataKit.Proofs.Dfa.Interning
import AutomataKit.Proofs.Machine.DeciderTable
import Mathlib.Data.List.Nodup

/-!
# The machine of a description

What the machine of an automaton is, in the names of the description from which the automaton was
read (`Dfa.Document.IsDecider`). It has two states and one symbol more than the description lists.
Its table is total on the listed states and has no entry besides; on the blank it decides. The names
that it adds differ from every name in the description, whatever names those are.
-/

namespace AutomataKit

namespace Dfa

variable (dfa : Dfa)

/-! ## Names and keys -/

theorem nodup_states_toMachine : dfa.toMachine.states.Nodup := by
  have added : [dfa.acceptName, dfa.rejectName].Nodup :=
    List.nodup_cons.mpr ⟨fun member => dfa.rejectName_ne_acceptName
      (List.mem_singleton.mp member).symm, List.nodup_singleton _⟩
  refine List.nodup_append.mpr ⟨dfa.states_nodup, added, ?_⟩
  rintro state known other member rfl
  rcases List.mem_cons.mp member with rfl | member
  · exact dfa.acceptName_not_mem known
  · rw [List.mem_singleton.mp member] at known
    exact dfa.rejectName_not_mem known

theorem nodup_alphabet_toMachine : dfa.toMachine.alphabet.Nodup := by
  refine List.nodup_append.mpr ⟨dfa.alphabet_nodup, List.nodup_singleton _, ?_⟩
  rintro symbol known other member rfl
  rw [List.mem_singleton.mp member] at known
  exact dfa.blankName_not_mem known

theorem length_machineRow (state : dfa.State) :
    (dfa.machineRow state).length = dfa.alphabet.length + 1 := by
  rw [← List.length_map (f := Prod.fst), map_fst_machineRow, List.length_map, List.length_append]
  rfl

/-- The table has one entry for each state of the automaton and each tape symbol. -/
theorem size_transitions_toMachine :
    dfa.toMachine.transitions.size = dfa.states.length * (dfa.alphabet.length + 1) := by
  change dfa.machineEntries.length = _
  unfold machineEntries
  rw [List.length_flatMap, funext dfa.length_machineRow, List.map_const', List.sum_replicate_nat,
    List.length_finRange]

variable {dfa}

/-- The machine moves from every state on every symbol and on the blank, and nowhere else. -/
theorem isSome_transition?_iff {source symbol : String} :
    (dfa.toMachine.transition? source symbol).isSome ↔
      source ∈ dfa.states ∧ (symbol ∈ dfa.alphabet ∨ symbol = dfa.blankName) := by
  constructor
  · intro defined
    obtain ⟨transition, found⟩ := Option.isSome_iff_exists.mp defined
    obtain ⟨state, rfl, ⟨letter, rfl, -⟩ | ⟨rfl, -⟩⟩ :=
      mem_machineEntries.mp (transition?_eq_some_iff.mp found)
    · exact ⟨dfa.name_mem state, .inl (dfa.label_mem letter)⟩
    · exact ⟨dfa.name_mem state, .inr rfl⟩
  · rintro ⟨known, tape⟩
    obtain ⟨state, rfl⟩ := dfa.exists_name_eq known
    rcases tape with listed | rfl
    · obtain ⟨letter, rfl⟩ := dfa.exists_label_eq listed
      exact Option.isSome_of_eq_some (transition?_symbol state letter)
    · exact Option.isSome_of_eq_some (transition?_blank state)

/-! ## The machine by the names of a description -/

/-- The machine decides as the description says: on a listed state and symbol it takes the listed
transition and leaves the symbol as it is, on the blank it accepts or rejects. -/
structure Document.IsDecider (doc : Document) (machine : TuringMachine) : Prop where
  states_eq : machine.states = doc.stateNames ++ [machine.accept, machine.reject]
  states_nodup : machine.states.Nodup
  alphabet_eq : machine.alphabet = doc.symbolNames ++ [machine.blank]
  alphabet_nodup : machine.alphabet.Nodup
  start_eq : doc.start = .str machine.start
  size_transitions :
    machine.transitions.size = doc.stateNames.length * (doc.symbolNames.length + 1)
  isSome_transition? : ∀ state symbol, (machine.transition? state symbol).isSome ↔
    state ∈ doc.stateNames ∧ (symbol ∈ doc.symbolNames ∨ symbol = machine.blank)
  onSymbol : ∀ state ∈ doc.stateNames, ∀ symbol ∈ doc.symbolNames, ∃ target,
    doc.target? state symbol = some target ∧
      machine.transition? state symbol = some ⟨target, symbol, .right⟩
  onBlank : ∀ state ∈ doc.stateNames, machine.transition? state machine.blank =
    some ⟨if state ∈ doc.acceptNames then machine.accept else machine.reject, machine.blank, .right⟩
  not_halting : ∀ state ∈ doc.stateNames, ¬ machine.Halting state

/-- The machine of a described automaton decides without ever being stuck. -/
theorem isDecider_toMachine {doc : Document} (sound : doc.WellFormed) :
    doc.IsDecider (ofDocument doc sound).toMachine where
  states_eq := rfl
  states_nodup := nodup_states_toMachine _
  alphabet_eq := rfl
  alphabet_nodup := nodup_alphabet_toMachine _
  start_eq := by
    rw [sound.start_eq, ← name_start_ofDocument sound]
    rfl
  size_transitions := size_transitions_toMachine _
  isSome_transition? _ _ := isSome_transition?_iff
  onSymbol := by
    intro name known label listed
    obtain ⟨state, rfl⟩ := (ofDocument doc sound).exists_name_eq known
    obtain ⟨symbol, rfl⟩ := (ofDocument doc sound).exists_label_eq listed
    exact ⟨_, target?_name_label sound state symbol, transition?_symbol state symbol⟩
  onBlank := by
    intro name known
    obtain ⟨state, rfl⟩ := (ofDocument doc sound).exists_name_eq known
    rw [← if_congr (accepts_ofDocument_iff sound state) rfl rfl]
    exact transition?_blank state
  not_halting := by
    intro name known
    obtain ⟨state, rfl⟩ := (ofDocument doc sound).exists_name_eq known
    exact not_halting_name _ state

/-- **Every compiled machine is a total decider** of what the description lists. -/
theorem toMachine_ofJson {value : Json} {dfa : Dfa} (read : ofJson value = .ok dfa) :
    ∃ doc, Document.ofJson value = .ok doc ∧ doc.WellFormed ∧ doc.IsDecider dfa.toMachine := by
  obtain ⟨doc, sound, entries, -, rfl⟩ := ofJson_eq_ok_iff.mp read
  exact ⟨doc, entries, sound, isDecider_toMachine sound⟩

/-- States and symbols that have the names a machine would choose first. -/
def crowdedDescription : Description where
  states := ["q_reject'", "q_accept", "q_reject", "q_accept'"]
  alphabet := ["_'", "_"]
  transitions := .ofList [
    ("q_accept", .ofList [("_", "q_reject"), ("_'", "q_accept")]),
    ("q_accept'", .ofList [("_", "q_reject'"), ("_'", "q_accept")]),
    ("q_reject", .ofList [("_", "q_accept"), ("_'", "q_accept'")]),
    ("q_reject'", .ofList [("_", "q_reject"), ("_'", "q_reject'")])]
  startState := "q_accept"
  acceptStates := ["q_reject", "q_reject'"]

/-- The automaton of this description. -/
def crowded : Dfa where
  states := ["q_reject'", "q_accept", "q_reject", "q_accept'"]
  alphabet := ["_'", "_"]
  table := #v[#v[0, 2], #v[1, 2], #v[3, 1], #v[1, 0]]
  start := 1
  accepting := #v[true, false, true, false]
  states_nodup := by decide
  alphabet_nodup := by decide

/-- The names that the machine adds have two primes each, and its blank is no name of the
description either. -/
theorem toMachine_crowded :
    ofJson crowdedDescription.toJson = .ok crowded ∧
      crowded.toMachine.accept = "q_accept''" ∧ crowded.toMachine.reject = "q_reject''" ∧
      crowded.toMachine.blank = "_''" ∧
      (∃ doc, Document.ofJson crowdedDescription.toJson = .ok doc ∧
        doc.IsDecider crowded.toMachine) ∧
      crowded.toMachine.transition? "q_reject'" "_''" =
        some ⟨"q_accept''", "_''", .right⟩ := by
  have read : ofJson crowdedDescription.toJson = .ok crowded := rfl
  obtain ⟨doc, entries, -, decider⟩ := toMachine_ofJson read
  have accept : crowded.toMachine.accept = "q_accept''" := by decide +kernel
  have blank : crowded.toMachine.blank = "_''" := by decide +kernel
  have verdict := decider.onBlank "q_reject'"
  rw [blank, accept] at verdict
  cases entries
  exact ⟨read, accept, by decide +kernel, blank, ⟨_, rfl, decider⟩, verdict (by decide)⟩

end Dfa

end AutomataKit
