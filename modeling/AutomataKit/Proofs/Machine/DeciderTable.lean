import AutomataKit.Machine.OfDfa

/-!
# The table of an automaton's machine

The machine of an automaton has a transition exactly for the states of the automaton on the tape
symbols. On a symbol it goes where the automaton goes, on the blank into the accept state or the
reject state (`Dfa.mem_machineEntries`). The generated names differ from all given names and from
each other, so that no state of the automaton halts.
-/

namespace AutomataKit

namespace Dfa

variable (dfa : Dfa)

/-- The halting state in which the machine decides for a state of the automaton. -/
def verdictName (state : dfa.State) : String :=
  if dfa.accepts state then dfa.acceptName else dfa.rejectName

theorem name_mem (state : dfa.State) : dfa.name state ∈ dfa.states := List.getElem_mem _

/-- No state has the name of the accept state. -/
theorem acceptName_not_mem : dfa.acceptName ∉ dfa.states := freshName_not_mem _ _

/-- No state has the name of the reject state. -/
theorem rejectName_not_mem : dfa.rejectName ∉ dfa.states := by
  intro member
  exact freshName_not_mem "q_reject" (dfa.states ++ [dfa.acceptName])
    (List.mem_append_left _ member)

/-- The accept state and the reject state have different names. -/
theorem rejectName_ne_acceptName : dfa.rejectName ≠ dfa.acceptName := by
  intro same
  apply freshName_not_mem "q_reject" (dfa.states ++ [dfa.acceptName])
  exact List.mem_append_right _ (List.mem_singleton.mpr same)

/-- The blank is no symbol of the alphabet. -/
theorem blankName_not_mem : dfa.blankName ∉ dfa.alphabet := freshName_not_mem _ _

/-- A state of the automaton is not the accept state. -/
theorem name_ne_acceptName (state : dfa.State) : dfa.name state ≠ dfa.acceptName := by
  intro same
  exact dfa.acceptName_not_mem (same ▸ dfa.name_mem state)

/-- A state of the automaton is not the reject state. -/
theorem name_ne_rejectName (state : dfa.State) : dfa.name state ≠ dfa.rejectName := by
  intro same
  exact dfa.rejectName_not_mem (same ▸ dfa.name_mem state)

/-- No state of the automaton halts the machine. -/
theorem not_halting_name (state : dfa.State) : ¬ dfa.toMachine.Halting (dfa.name state) := by
  rintro (accepting | rejecting)
  · exact dfa.name_ne_acceptName state accepting
  · exact dfa.name_ne_rejectName state rejecting

/-- The machine halts in the state that it enters on the blank. -/
theorem halting_verdictName (state : dfa.State) :
    dfa.toMachine.Halting (dfa.verdictName state) := by
  unfold verdictName
  split
  · exact .inl rfl
  · exact .inr rfl

variable {dfa}

/-- The entries of the table are the moves of the automaton and the decisions on the blank. -/
theorem mem_machineEntries {source symbol : String} {transition : Transition} :
    ((source, symbol), transition) ∈ dfa.machineEntries ↔
      ∃ state, dfa.name state = source ∧
        ((∃ letter : dfa.Symbol, dfa.label letter = symbol ∧
            transition = ⟨dfa.name (dfa.next state letter), symbol, .right⟩) ∨
          (dfa.blankName = symbol ∧ transition = ⟨dfa.verdictName state, symbol, .right⟩)) := by
  simp only [machineEntries, List.mem_flatMap, List.mem_finRange, true_and, machineRow,
    List.mem_append, List.mem_map, List.mem_singleton, Prod.mk.injEq, verdictName]
  constructor
  · rintro ⟨state, ⟨letter, ⟨named, rfl⟩, rfl⟩ | ⟨⟨rfl, rfl⟩, rfl⟩⟩
    · exact ⟨state, named, .inl ⟨letter, rfl, rfl⟩⟩
    · exact ⟨state, rfl, .inr ⟨rfl, rfl⟩⟩
  · rintro ⟨state, rfl, ⟨letter, rfl, rfl⟩ | ⟨rfl, rfl⟩⟩
    · exact ⟨state, .inl ⟨letter, ⟨rfl, rfl⟩, rfl⟩⟩
    · exact ⟨state, .inr ⟨⟨rfl, rfl⟩, rfl⟩⟩

/-- The machine has the transitions of its entries and no others. -/
theorem transition?_eq_some_iff {source symbol : String} {transition : Transition} :
    dfa.toMachine.transition? source symbol = some transition ↔
      ((source, symbol), transition) ∈ dfa.machineEntries := by
  unfold TuringMachine.transition?
  rw [OrderedMap.find?_eq_some_iff]
  rfl

/-- On a symbol the machine goes where the automaton goes, writes the symbol back and moves right.
-/
theorem transition?_symbol (state : dfa.State) (symbol : dfa.Symbol) :
    dfa.toMachine.transition? (dfa.name state) (dfa.label symbol) =
      some ⟨dfa.name (dfa.next state symbol), dfa.label symbol, .right⟩ := by
  rw [transition?_eq_some_iff, mem_machineEntries]
  exact ⟨state, rfl, .inl ⟨symbol, rfl, rfl⟩⟩

/-- On the blank the machine decides by the state, writes the blank back and moves right. -/
theorem transition?_blank (state : dfa.State) :
    dfa.toMachine.transition? (dfa.name state) dfa.blankName =
      some ⟨dfa.verdictName state, dfa.blankName, .right⟩ := by
  rw [transition?_eq_some_iff, mem_machineEntries]
  exact ⟨state, rfl, .inr ⟨rfl, rfl⟩⟩

/-- On anything else the machine is stuck. -/
theorem transition?_eq_none {source symbol : String} (unknown : symbol ∉ dfa.alphabet)
    (other : symbol ≠ dfa.blankName) : dfa.toMachine.transition? source symbol = none := by
  cases found : dfa.toMachine.transition? source symbol with
  | none => rfl
  | some transition =>
    rw [transition?_eq_some_iff, mem_machineEntries] at found
    obtain ⟨state, -, ⟨letter, rfl, -⟩ | ⟨rfl, -⟩⟩ := found
    · exact absurd (List.getElem_mem _) unknown
    · exact absurd rfl other

end Dfa

end AutomataKit
