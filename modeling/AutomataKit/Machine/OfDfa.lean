import AutomataKit.Dfa.Basic
import AutomataKit.FreshName
import AutomataKit.Machine.Basic

/-!
# From an automaton to a machine

The machine of an automaton reads its input from left to right. On a symbol of the automaton it
takes the automaton's transition, leaves the symbol as it is and moves right; on the blank it
decides, by whether the automaton's state is accepting. The names of the accept state, of the
reject state and of the blank are fresh, so no state of the automaton halts and no symbol of it
is the blank.
-/

namespace AutomataKit

namespace Dfa

/-- The accept state of the machine, which has a name that no state has. -/
def acceptName (dfa : Dfa) : String := freshName "q_accept" dfa.states

/-- The reject state of the machine, which has another such name. -/
def rejectName (dfa : Dfa) : String := freshName "q_reject" (dfa.states ++ [dfa.acceptName])

/-- The blank of the machine, which is no symbol of the alphabet. -/
def blankName (dfa : Dfa) : String := freshName "_" dfa.alphabet

/-- The transitions from a state: one for each symbol, and the decision on the blank. -/
def machineRow (dfa : Dfa) (state : dfa.State) : List ((String × String) × Transition) :=
  let row := (List.finRange dfa.alphabet.length).map fun symbol =>
    let label := dfa.label symbol
    ((dfa.name state, label), Transition.mk (dfa.name (dfa.next state symbol)) label .right)
  let verdict := if dfa.accepts state then dfa.acceptName else dfa.rejectName
  row ++ [((dfa.name state, dfa.blankName), ⟨verdict, dfa.blankName, .right⟩)]

/-- All transitions of the machine, state by state. -/
def machineEntries (dfa : Dfa) : List ((String × String) × Transition) :=
  (List.finRange dfa.states.length).flatMap dfa.machineRow

/-- The keys of the transitions from a state pair its name with every tape symbol. -/
theorem map_fst_machineRow (dfa : Dfa) (state : dfa.State) :
    (dfa.machineRow state).map Prod.fst =
      (dfa.alphabet ++ [dfa.blankName]).map (Prod.mk (dfa.name state)) := by
  have labels : (List.finRange dfa.alphabet.length).map dfa.label = dfa.alphabet :=
    List.ext_getElem (by simp) fun _ _ _ => by simp [label]
  simp only [machineRow, List.map_append, List.map_map, List.map_cons, List.map_nil]
  congr 1
  conv => rhs; rw [← labels, List.map_map]
  rfl

/-- No two transitions of the machine have the same key. -/
theorem nodup_map_fst_machineEntries (dfa : Dfa) : (dfa.machineEntries.map Prod.fst).Nodup := by
  have symbols : (dfa.alphabet ++ [dfa.blankName]).Nodup := by
    refine List.nodup_append.mpr ⟨dfa.alphabet_nodup, by simp, ?_⟩
    intro symbol member blank single equal
    rw [equal, List.mem_singleton.mp single] at member
    exact freshName_not_mem "_" dfa.alphabet member
  rw [machineEntries, List.map_flatMap]
  refine List.pairwise_flatMap.mpr ⟨fun state _ => ?_, ?_⟩
  · rw [map_fst_machineRow]
    refine List.pairwise_map.mpr (symbols.imp fun different equal => ?_)
    exact different (Prod.mk.inj equal).2
  · refine (List.nodup_finRange dfa.states.length).imp ?_
    intro first second different left leftMember right rightMember equal
    rw [map_fst_machineRow] at leftMember rightMember
    obtain ⟨_, -, rfl⟩ := List.mem_map.mp leftMember
    obtain ⟨_, -, rfl⟩ := List.mem_map.mp rightMember
    exact different (dfa.name_injective (Prod.mk.inj equal).1)

/-- The machine that decides the language of an automaton. -/
def toMachine (dfa : Dfa) : TuringMachine where
  states := dfa.states ++ [dfa.acceptName, dfa.rejectName]
  alphabet := dfa.alphabet ++ [dfa.blankName]
  transitions := ⟨dfa.machineEntries, dfa.nodup_map_fst_machineEntries⟩
  start := dfa.name dfa.start
  accept := dfa.acceptName
  reject := dfa.rejectName
  blank := dfa.blankName

end Dfa

end AutomataKit
