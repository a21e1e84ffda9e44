import AutomataKit.Proofs.Dfa.Morphism
import AutomataKit.Proofs.Machine.Replay

/-!
# Morphisms of automata and their machines

A morphism of automata renames states and keeps the names of the symbols, so the machines of the two
automata have the same blank. The names of the accept state and of the reject state are made from
the names of the states and may differ. When the morphism renames these as well, both machines make
the same record on every input, up to the names of the states (`Dfa.Morphism.simulate_eq`).
-/

namespace AutomataKit

/-- A record with the states renamed. -/
def Simulation.rename (rename : String → String) (record : Simulation) : Simulation :=
  { record with
    configurations := record.configurations.map fun configuration =>
      { configuration with state := rename configuration.state } }

/-- Giving every state its own name changes no record. -/
theorem Simulation.rename_id (record : Simulation) : record.rename id = record := by
  unfold Simulation.rename
  rw [show record.configurations.map (fun configuration =>
    { configuration with state := id configuration.state }) = record.configurations
      from List.map_id _]

namespace Dfa

namespace Morphism

variable {rename : String → String} {dfa other : Dfa} (morphism : Morphism rename dfa other)

include morphism

/-! ## What both machines read -/

/-- Both machines have the same blank, because the alphabets have the same symbols. -/
theorem blankName_eq : other.blankName = dfa.blankName :=
  freshName_congr "_" morphism.mem_alphabet_iff

/-- Both machines begin with the same cells. -/
theorem inputCells_eq (chars : List Char) : other.inputCells chars = dfa.inputCells chars := by
  rw [inputCells, inputCells, morphism.blankName_eq]

/-- The same characters come before the first blank. -/
theorem beforeBlank_eq (chars : List Char) : other.beforeBlank chars = dfa.beforeBlank chars := by
  rw [beforeBlank, beforeBlank, morphism.blankName_eq]

/-! ## What both machines record -/

/-- A trace through the images of states is the trace through the states, renamed. -/
theorem trace_onState (chars : List Char) (place : Nat) (visited : List dfa.State) :
    other.trace chars place (visited.map morphism.onState) =
      (dfa.trace chars place visited).map fun configuration =>
        { configuration with state := rename configuration.state } := by
  unfold trace
  rw [List.zipIdx_map, List.map_map, List.map_map]
  refine List.map_congr_left fun entry _ => ?_
  simp only [Function.comp_apply, Prod.map_fst, Prod.map_snd, morphism.name_onState,
    morphism.inputCells_eq, id_eq]

section

variable (accept : rename dfa.acceptName = other.acceptName)
  (reject : rename dfa.rejectName = other.rejectName)

include accept reject

/-- An image has the verdict of its state, renamed. -/
theorem verdictName_onState (state : dfa.State) :
    other.verdictName (morphism.onState state) = rename (dfa.verdictName state) := by
  unfold verdictName
  rw [morphism.accepts_onState]
  split
  · exact accept.symm
  · exact reject.symm

/-- The moment after the decision is the same, renamed. -/
theorem decision_onState (chars : List Char) (place : Nat) (state : dfa.State) :
    other.decision chars place (morphism.onState state) =
      { dfa.decision chars place state with
        state := rename (dfa.decision chars place state).state } := by
  unfold decision
  rw [morphism.verdictName_onState accept reject, morphism.inputCells_eq, morphism.blankName_eq]

/-- What is recorded along the image of a walk is what is recorded along the walk, renamed. -/
theorem replay_onState (chars : List Char) (place : Nat) (first : dfa.State) (walk : dfa.Walk)
    (bound : Nat) :
    other.replay chars place (morphism.onState first) (walk.map morphism.onState) bound =
      (dfa.replay chars place first walk bound).rename rename := by
  have visited : (walk.map morphism.onState).visited (morphism.onState first) =
      (walk.visited first).map morphism.onState := by
    simp only [Walk.visited, Walk.map, List.map_map, List.map_cons, Function.comp_def]
  have length : (walk.map morphism.onState).steps.length = walk.steps.length := List.length_map _
  have stopped : (walk.map morphism.onState).stoppedBy = walk.stoppedBy := rfl
  have last : (walk.map morphism.onState).last = morphism.onState walk.last := rfl
  unfold replay
  simp only [visited, length, stopped, last, morphism.trace_onState, morphism.accepts_onState,
    morphism.decision_onState accept reject]
  split
  · simp only [Simulation.rename, List.map_take]
  · split
    · rfl
    · simp only [Simulation.rename, List.map_append, List.map_singleton]

/-- **Machines of automata between which there is a morphism.** They make the same record on every
input, up to the names of the states. -/
theorem simulate_eq (text : String) (maxSteps : Int) :
    other.toMachine.simulate text maxSteps =
      (dfa.toMachine.simulate text maxSteps).rename rename := by
  rw [simulate_toMachine, simulate_toMachine, ← morphism.onState_start, morphism.beforeBlank_eq,
    morphism.walk_onState, morphism.replay_onState accept reject]

end

end Morphism

/-! ## Names that are made up -/

/-- A renaming of the states of an automaton, for its machine: the accept state and the reject state
become those of the machine of the other automaton. -/
def translate (dfa other : Dfa) (rename : String → String) (state : String) : String :=
  if state = dfa.acceptName then other.acceptName
  else if state = dfa.rejectName then other.rejectName
  else rename state

variable (dfa other : Dfa) (rename : String → String)

/-- The accept state of the one machine becomes that of the other. -/
theorem translate_acceptName : dfa.translate other rename dfa.acceptName = other.acceptName :=
  if_pos rfl

/-- The reject state of the one machine becomes that of the other. -/
theorem translate_rejectName : dfa.translate other rename dfa.rejectName = other.rejectName := by
  unfold translate
  rw [if_neg dfa.rejectName_ne_acceptName, if_pos rfl]

/-- The states of the automaton are renamed as they were. -/
theorem translate_name (state : dfa.State) :
    dfa.translate other rename (dfa.name state) = rename (dfa.name state) := by
  unfold translate
  rw [if_neg (dfa.name_ne_acceptName state), if_neg (dfa.name_ne_rejectName state)]

variable {dfa other rename}

namespace Morphism

/-- The names that are made up are no names of states, so it does not matter where the renaming
takes them. -/
def translated (morphism : Morphism rename dfa other) :
    Morphism (dfa.translate other rename) dfa other :=
  { morphism with
    name_onState := fun state =>
      (morphism.name_onState state).trans (dfa.translate_name other rename state).symm }

/-- **What the machines record.** It is the same up to the names of the states: names of the
automata correspond as the renaming says, the accept state corresponds to the accept state, and the
reject state to the reject state. -/
theorem simulate_translate (morphism : Morphism rename dfa other) (text : String) (maxSteps : Int) :
    other.toMachine.simulate text maxSteps =
      (dfa.toMachine.simulate text maxSteps).rename (dfa.translate other rename) :=
  morphism.translated.simulate_eq (dfa.translate_acceptName other rename)
    (dfa.translate_rejectName other rename) text maxSteps

end Morphism

end Dfa

end AutomataKit
