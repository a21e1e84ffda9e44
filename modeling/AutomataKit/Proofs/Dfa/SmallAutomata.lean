import AutomataKit.Proofs.Dfa.Interning
import AutomataKit.Proofs.Dfa.Morphism
import AutomataKit.Proofs.Dfa.TwoStates

/-!
# Automata with at most two states

Among the listed automata over an alphabet is one for every automaton with at most two states, up to
the names: its start state is read as `q0` and every other state, of which there is at most one, as
`q1` (`Dfa.stand`). The transitions and accepting states make a behavior of the two states
(`Dfa.behaviorOver`), which some listed automaton has, and reading the states so is a morphism to
it. So both accept the same texts (`Dfa.exists_enumerated_agree`). An automaton with one state is
read the same way; then nothing leads to `q1`.
-/

namespace AutomataKit

namespace Dfa

open Enumeration

/-! ## Descriptions in terms of texts -/

/-- The names of the states are those that the description lists. -/
theorem Description.stateNames_entries (description : Description) :
    description.entries.stateNames = description.states :=
  Json.filterMap_text?_map_str _

/-- The symbols are those that the description lists. -/
theorem Description.symbolNames_entries (description : Description) :
    description.entries.symbolNames = description.alphabet :=
  Json.filterMap_text?_map_str _

/-- The accepting states are those that the description lists. -/
theorem Description.acceptNames_entries (description : Description) :
    description.entries.acceptNames = description.acceptStates :=
  Json.filterMap_text?_map_str _

/-- The transitions of a description in terms of texts are those that it has. -/
theorem Description.target?_entries (description : Description) (state symbol : String) :
    description.entries.target? state symbol =
      (description.transitions.find? state).bind fun row => row.find? symbol := by
  have stored : description.entries.transitions.members.lookup state =
      (description.transitions.find? state).map (.ofMap .str) := OrderedMap.lookup_map_snd ..
  unfold Document.target? Document.row?
  rw [Json.member?_str, stored]
  cases description.transitions.find? state with
  | none => rfl
  | some row =>
    change ((row.entries.map fun entry => (entry.1, Json.str entry.2)).lookup symbol).bind
      Json.text? = row.entries.lookup symbol
    rw [OrderedMap.lookup_map_snd]
    cases row.entries.lookup symbol <;> rfl

/-! ## Two names for the states -/

variable (dfa : Dfa)

/-- The name under which a state is read: the start state as `q0` and any other as `q1`. -/
def readName (name : String) : String := target (name ≠ dfa.name dfa.start)

/-- A state under the name by which it is read. -/
def readState (state : dfa.State) : TwoState := ⟨dfa.readName (dfa.name state), target_mem _⟩

/-- A state other than the start state, if there is one. -/
def otherState : dfa.State :=
  ((List.finRange dfa.states.length).find? (· ≠ dfa.start)).getD dfa.start

/-- The state that is read as one of the two. -/
def stand (state : TwoState) : dfa.State :=
  if state.val = "q0" then dfa.start else dfa.otherState

/-- The automaton as a behavior of the two states over an alphabet with the same symbols. -/
def behaviorOver {alphabet : List String} (known : ∀ label ∈ alphabet, label ∈ dfa.alphabet) :
    Behavior alphabet :=
  (fun state symbol => dfa.readState (dfa.next (dfa.stand state)
      ⟨dfa.alphabet.idxOf symbol.val, List.idxOf_lt_length_of_mem (known _ symbol.property)⟩),
    Finset.univ.filter fun state => dfa.accepts (dfa.stand state) = true)

variable {dfa}

/-- Where a state differs from the start state, the search for another finds one. -/
theorem otherState_ne_start {state : dfa.State} (other : state ≠ dfa.start) :
    dfa.otherState ≠ dfa.start := by
  unfold otherState
  cases found : (List.finRange dfa.states.length).find? (· ≠ dfa.start) with
  | none =>
    have same := List.find?_eq_none.mp found state (List.mem_finRange state)
    exact absurd (by simpa using same) other
  | some another =>
    have differs := List.find?_some found
    simpa using differs

/-- The start state is read as the first of the two. -/
theorem readState_start : (dfa.readState dfa.start).val = "q0" := by
  simp [readState, readName, target]

/-- Any other state is read as the second. -/
theorem readState_of_ne {state : dfa.State} (other : state ≠ dfa.start) :
    (dfa.readState state).val = "q1" := by
  have differs : dfa.name state ≠ dfa.name dfa.start := fun same =>
    other (dfa.name_injective same)
  simp [readState, readName, target, differs]

/-- With at most two states every state is the one that is read as it is. -/
theorem stand_readState (few : dfa.states.length ≤ 2) (state : dfa.State) :
    dfa.stand (dfa.readState state) = state := by
  unfold stand
  by_cases start : state = dfa.start
  · rw [start, readState_start, if_pos rfl]
  · have other := otherState_ne_start start
    rw [readState_of_ne start, if_neg (by decide)]
    rw [ne_eq, Fin.ext_iff] at other
    rw [Fin.ext_iff] at start
    apply Fin.ext
    omega

section

variable {alphabet : List String} {known : ∀ label ∈ alphabet, label ∈ dfa.alphabet}
  (few : dfa.states.length ≤ 2)

include few

/-- The behavior leads from a state to its successor, as both are read. -/
theorem behaviorOver_next (state : dfa.State) (symbol : dfa.Symbol)
    (listed : dfa.label symbol ∈ alphabet) :
    (dfa.behaviorOver known).1 (dfa.readState state) ⟨dfa.label symbol, listed⟩ =
      dfa.readState (dfa.next state symbol) := by
  have inside := List.idxOf_lt_length_of_mem (dfa.label_mem symbol)
  have position : (⟨dfa.alphabet.idxOf (dfa.label symbol), inside⟩ : dfa.Symbol) = symbol :=
    dfa.label_injective (List.getElem_idxOf inside)
  change dfa.readState (dfa.next (dfa.stand (dfa.readState state))
    ⟨dfa.alphabet.idxOf (dfa.label symbol), inside⟩) = _
  rw [stand_readState few, position]

/-- The behavior accepts what is accepted. -/
theorem mem_behaviorOver (state : dfa.State) :
    dfa.readState state ∈ (dfa.behaviorOver known).2 ↔ dfa.accepts state = true := by
  rw [behaviorOver, Finset.mem_filter_univ, stand_readState few]

/-! ## The listed automaton -/

variable (same : ∀ label, label ∈ alphabet ↔ label ∈ dfa.alphabet) {description : Description}
  (realizes : Realizes description (dfa.behaviorOver known))
  (sound : description.entries.WellFormed)

include realizes

omit few in
/-- The automaton with this behavior starts in what the start state is read as. -/
theorem name_start_of_realizes :
    (ofDocument description.entries sound).name (ofDocument description.entries sound).start =
      dfa.readName (dfa.name dfa.start) := by
  rw [name_start_ofDocument]
  exact realizes.start_eq.trans dfa.readState_start.symm

include same

/-- Its transitions lead where those of the given automaton do, as the states are read. -/
theorem name_next_of_realizes (state : dfa.State) (symbol : dfa.Symbol)
    (image : (ofDocument description.entries sound).State)
    (letter : (ofDocument description.entries sound).Symbol)
    (sameState :
      (ofDocument description.entries sound).name image = dfa.readName (dfa.name state))
    (sameSymbol : (ofDocument description.entries sound).label letter = dfa.label symbol) :
    (ofDocument description.entries sound).name
        ((ofDocument description.entries sound).next image letter) =
      dfa.readName (dfa.name (dfa.next state symbol)) := by
  have listed : dfa.label symbol ∈ alphabet := (same _).mpr (dfa.label_mem symbol)
  have leads := target?_name_label sound image letter
  have behaves := realizes.next_eq (dfa.readState state) ⟨dfa.label symbol, listed⟩
  rw [behaviorOver_next few] at behaves
  rw [Description.target?_entries, sameState, sameSymbol] at leads
  exact Option.some.inj (leads.symm.trans behaves)

omit same in
/-- It accepts in the same states, as these are read. -/
theorem accepts_of_realizes (state : dfa.State)
    (image : (ofDocument description.entries sound).State)
    (sameState :
      (ofDocument description.entries sound).name image = dfa.readName (dfa.name state)) :
    (ofDocument description.entries sound).accepts image = dfa.accepts state := by
  have behaves := realizes.accept_iff (dfa.readState state)
  rw [mem_behaviorOver few] at behaves
  rw [Bool.eq_iff_iff, accepts_ofDocument_iff, Description.acceptNames_entries, sameState]
  exact behaves

/-- Reading the states as two is a morphism to the automaton of a description with the behavior. -/
def readingMorphism : Morphism dfa.readName dfa (ofDocument description.entries sound) :=
  have states : (ofDocument description.entries sound).states = Enumeration.states :=
    description.stateNames_entries.trans realizes.states_eq
  have labels : (ofDocument description.entries sound).alphabet = alphabet :=
    description.symbolNames_entries.trans realizes.alphabet_eq
  .ofNames (fun state => states ▸ (dfa.readState state).property) (fun label => labels ▸ same label)
    (name_start_of_realizes realizes sound) (name_next_of_realizes few same realizes sound)
    (accepts_of_realizes few realizes sound)

end

/-- **Every small language is listed.** For an automaton with at most two states and an alphabet
with the same symbols, in any order, one of the listed automata accepts the same texts, and
emptiness is decided alike. -/
theorem exists_enumerated_agree (dfa : Dfa) (few : dfa.states.length ≤ 2) {alphabet : List String}
    (distinct : alphabet.Nodup) (same : ∀ label, label ∈ alphabet ↔ label ∈ dfa.alphabet) :
    ∃ description ∈ enumerate alphabet 2 (size alphabet),
      ∃ listed, ofJson description.toJson = .ok listed ∧
        (∀ text, (listed.run text).accepted = (dfa.run text).accepted) ∧
        listed.isEmpty = dfa.isEmpty := by
  have known : ∀ label ∈ alphabet, label ∈ dfa.alphabet := fun label => (same label).mp
  obtain ⟨index, inside, decoded⟩ := exists_decoded_eq distinct (dfa.behaviorOver known)
  have realizes : Realizes (entry alphabet index) (dfa.behaviorOver known) :=
    decoded ▸ realizes_entry distinct index
  have bound : index < (enumerate alphabet 2 (size alphabet)).size := by
    rw [size_enumerate, supply]
    omega
  have member : entry alphabet index ∈ enumerate alphabet 2 (size alphabet) :=
    getElem_enumerate bound ▸ Array.getElem_mem bound
  have valid : (entry alphabet index).entries.defect? = none := defect?_entry distinct index
  have sound := Document.wellFormed_of_defect? valid
  have morphism := readingMorphism few same realizes sound
  refine ⟨_, member, _, ofJson_eq_ok_iff.mpr ⟨_, sound, Description.ofJson_toJson _, valid, rfl⟩,
    fun text => ?_, morphism.isEmpty_eq⟩
  rw [morphism.run_eq]
  rfl

/-- A turnstile for texts of pushes and coins. It starts in its second state, and is open after a
coin until it is pushed. -/
def turnstile : Dfa where
  states := ["open", "shut"]
  alphabet := ["p", "c"]
  table := #v[#v[1, 0], #v[1, 0]]
  start := 1
  accepting := Vector.ofFn (· == 0)
  states_nodup := by decide
  alphabet_nodup := by decide

/-- Over the same letters in another order a listed automaton accepts what this one accepts. -/
theorem exists_enumerated_turnstile :
    turnstile.states.length ≤ 2 ∧ (∀ label, label ∈ ["c", "p"] ↔ label ∈ turnstile.alphabet) ∧
      ∃ description ∈ enumerate ["c", "p"] 2 (size ["c", "p"]),
        ∃ listed, ofJson description.toJson = .ok listed ∧
          (listed.run "cp").accepted = false ∧ (listed.run "cpc").accepted = true ∧
          listed.isEmpty = turnstile.isEmpty := by
  have few : turnstile.states.length ≤ 2 := by decide
  have same : ∀ label, label ∈ ["c", "p"] ↔ label ∈ turnstile.alphabet := fun _ =>
    List.Perm.mem_iff (by decide)
  obtain ⟨description, member, listed, read, accepted, empty⟩ :=
    exists_enumerated_agree turnstile few (by decide) same
  exact ⟨few, same, description, member, listed, read, (accepted "cp").trans (by decide +kernel),
    (accepted "cpc").trans (by decide +kernel), empty⟩

end Dfa

end AutomataKit
