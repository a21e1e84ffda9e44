import AutomataKit.Proofs.Dfa.Variation
import AutomataKit.Proofs.Machine.Morphism

/-!
# Rearranged descriptions

Two descriptions present the same automaton when they have the same states, symbols, start state,
accepting states and transitions, in whatever order the lists have them and whatever else the
objects hold (`Dfa.Document.Rearranges`). The positions of states and symbols differ, and with them
the tables; what is observed of the automaton and of its machine does not. Only the order in which
the search finds the states follows the order of the symbols (`Dfa.agree_of_rearranges`).

The transitions say nothing of a state's row when there is no symbol. The checks ask for the row all
the same (`Dfa.defect?_rowless`).
-/

namespace AutomataKit

namespace Dfa

namespace Document

/-- The other description presents the same automaton. Nothing is said of rows of other states, of
other entries in rows, and of the order and repetitions of names, but that the lists of states and
of symbols have none. -/
structure Rearranges (doc other : Document) : Prop where
  states_eq : other.states = .ofTexts other.stateNames
  states_nodup : other.stateNames.Nodup
  mem_states : ∀ name, name ∈ other.stateNames ↔ name ∈ doc.stateNames
  alphabet_eq : other.alphabet = .ofTexts other.symbolNames
  alphabet_nodup : other.symbolNames.Nodup
  mem_alphabet : ∀ name, name ∈ other.symbolNames ↔ name ∈ doc.symbolNames
  start_eq : other.start = doc.start
  accept_eq : other.accept = .ofTexts other.acceptNames
  mem_accept : ∀ name, name ∈ other.acceptNames ↔ name ∈ doc.acceptNames
  target_eq : ∀ state ∈ doc.stateNames, ∀ symbol ∈ doc.symbolNames,
    other.target? state symbol = doc.target? state symbol

variable {doc other : Document}

namespace Rearranges

/-- **When a rearranged description is sound.** It needs a row for every state and nothing else. -/
theorem defect?_eq_none_iff (rearranges : doc.Rearranges other) (sound : doc.WellFormed) :
    other.defect? = none ↔ ∀ state ∈ doc.stateNames, ∃ row, other.row? (.str state) = some row := by
  have startEntry : other.start = .str doc.startName := rearranges.start_eq.trans sound.start_eq
  have startMember := (rearranges.mem_states _).mpr sound.startName_mem
  rw [defect?_eq_none_iff_of_rows rearranges.states_eq rearranges.alphabet_eq startEntry
    rearranges.accept_eq]
  constructor
  · rintro ⟨-, -, complete, -⟩ state member
    exact (complete state ((rearranges.mem_states state).mpr member)).1
  · intro complete
    refine ⟨rearranges.states_nodup, rearranges.alphabet_nodup, ?_, startMember, ?_⟩
    · intro state member
      have known := (rearranges.mem_states state).mp member
      refine ⟨complete state known, fun symbol listed => ?_⟩
      have present := (rearranges.mem_alphabet symbol).mp listed
      obtain ⟨target, among, leads⟩ := sound.target_mem state known symbol present
      exact ⟨target, (rearranges.mem_states target).mpr among,
        (rearranges.target_eq state known symbol present).trans leads⟩
    · intro state member
      apply (rearranges.mem_states state).mpr
      exact sound.accept_mem state ((rearranges.mem_accept state).mp member)

/-- With a symbol, the transition on it is in the row of every state. -/
theorem defect?_eq_none (rearranges : doc.Rearranges other) (sound : doc.WellFormed)
    (some : doc.symbolNames ≠ []) : other.defect? = none := by
  apply (rearranges.defect?_eq_none_iff sound).mpr
  intro state member
  obtain ⟨symbol, listed⟩ := List.exists_mem_of_ne_nil _ some
  obtain ⟨target, -, leads⟩ := sound.target_mem state member symbol listed
  rw [← rearranges.target_eq state member symbol listed, target?_eq_some_iff] at leads
  obtain ⟨row, found, -⟩ := leads
  exact ⟨row, found⟩

/-- A rearranged description names its states alike. -/
theorem renames (rearranges : doc.Rearranges other) : doc.Renames id other where
  mem_states := fun name => (rearranges.mem_states name).mpr
  mem_alphabet := rearranges.mem_alphabet
  startName_eq := by
    unfold startName
    rw [rearranges.start_eq]
    rfl
  target_eq := by
    intro state member symbol listed
    rw [Option.map_id]
    exact rearranges.target_eq state member symbol listed
  mem_accept := fun name _ => rearranges.mem_accept name

section

variable (rearranges : doc.Rearranges other) (sound : doc.WellFormed)
  (otherSound : other.WellFormed)

include rearranges

/-- Both automata start in the state of the same name. -/
theorem name_start_eq :
    (ofDocument other otherSound).name (ofDocument other otherSound).start =
      (ofDocument doc sound).name (ofDocument doc sound).start :=
  rearranges.renames.name_start_eq sound otherSound

/-- From states of one name, symbols of one name lead to states of one name. -/
theorem name_next_eq (state : (ofDocument doc sound).State)
    (symbol : (ofDocument doc sound).Symbol) (image : (ofDocument other otherSound).State)
    (letter : (ofDocument other otherSound).Symbol)
    (sameState : (ofDocument other otherSound).name image = (ofDocument doc sound).name state)
    (sameSymbol :
      (ofDocument other otherSound).label letter = (ofDocument doc sound).label symbol) :
    (ofDocument other otherSound).name ((ofDocument other otherSound).next image letter) =
      (ofDocument doc sound).name ((ofDocument doc sound).next state symbol) :=
  rearranges.renames.name_next_eq sound otherSound state symbol image letter sameState sameSymbol

/-- States of the same name accept alike. -/
theorem accepts_eq (state : (ofDocument doc sound).State)
    (image : (ofDocument other otherSound).State)
    (same : (ofDocument other otherSound).name image = (ofDocument doc sound).name state) :
    (ofDocument other otherSound).accepts image = (ofDocument doc sound).accepts state :=
  rearranges.renames.accepts_eq sound otherSound state image same

/-- States and symbols correspond to those of the same name. -/
def morphism : Morphism id (ofDocument doc sound) (ofDocument other otherSound) :=
  .ofNames (fun state => (rearranges.mem_states _).mpr (List.getElem_mem state.isLt))
    rearranges.mem_alphabet (rearranges.name_start_eq sound otherSound)
    (rearranges.name_next_eq sound otherSound) (rearranges.accepts_eq sound otherSound)

/-- The names made up for the accept state are one, because the same names are in use. -/
theorem acceptName_eq :
    (ofDocument doc sound).acceptName = (ofDocument other otherSound).acceptName :=
  freshName_congr "q_accept" fun name => (rearranges.mem_states name).symm

/-- The names made up for the reject state are one. -/
theorem rejectName_eq :
    (ofDocument doc sound).rejectName = (ofDocument other otherSound).rejectName := by
  apply freshName_congr "q_reject"
  intro name
  rw [List.mem_append, List.mem_append, rearranges.acceptName_eq sound otherSound]
  exact or_congr_left (rearranges.mem_states name).symm

/-! ## What is observed of the two automata -/

/-- Both automata run alike on every text. -/
theorem run_eq (text : String) :
    (ofDocument other otherSound).run text = (ofDocument doc sound).run text := by
  rw [(rearranges.morphism sound otherSound).run_eq, Run.rename_id]

/-- Both machines have the same record of every input, whatever the bound. -/
theorem simulate_eq (text : String) (maxSteps : Int) :
    (ofDocument other otherSound).toMachine.simulate text maxSteps =
      (ofDocument doc sound).toMachine.simulate text maxSteps := by
  rw [(rearranges.morphism sound otherSound).simulate_eq (rearranges.acceptName_eq sound otherSound)
    (rearranges.rejectName_eq sound otherSound), Simulation.rename_id]

/-- States of different names go to different ones. -/
theorem onState_injective (first second : (ofDocument doc sound).State)
    (same : (rearranges.morphism sound otherSound).onState first =
      (rearranges.morphism sound otherSound).onState second) : first = second :=
  (rearranges.morphism sound otherSound).onState_injective (fun _ _ _ _ equal => equal) first second
    same

/-- Going to the states of the same names changes no list of names. -/
theorem map_name_map_onState (states : List (ofDocument doc sound).State) :
    (states.map (rearranges.morphism sound otherSound).onState).map
        (ofDocument other otherSound).name = states.map (ofDocument doc sound).name := by
  rw [(rearranges.morphism sound otherSound).map_name_map_onState, List.map_id]

/-- Where the symbols keep their order, the states are found in the same order. -/
theorem reachableNames_eq (order : other.alphabet = doc.alphabet) :
    (ofDocument other otherSound).reachableNames = (ofDocument doc sound).reachableNames := by
  have symbols : other.symbolNames = doc.symbolNames := by
    unfold symbolNames
    rw [order]
  rw [(rearranges.morphism sound otherSound).reachableNames_eq (fun _ _ _ _ same => same) symbols,
    List.map_id]

/-- In any case the same states are found. -/
theorem perm_reachableNames :
    (ofDocument other otherSound).reachableNames.Perm (ofDocument doc sound).reachableNames := by
  unfold reachableNames
  rw [← rearranges.map_name_map_onState sound otherSound]
  exact ((rearranges.morphism sound otherSound).perm_reachable
    (rearranges.onState_injective sound otherSound)).map _

end

end Rearranges

end Document

/-- **The presentation does not matter.** A rearranged description of an automaton is sound when
every state has a row, as it has when there is a symbol. The automaton read from it then has the
same runs, its machine makes the same records, and emptiness is decided alike. The search finds the
same states, in the same order if the symbols stand in the same order. -/
theorem agree_of_rearranges {value other : Json} {dfa : Dfa} {doc otherDoc : Document}
    (read : ofJson value = .ok dfa) (entries : Document.ofJson value = .ok doc)
    (otherEntries : Document.ofJson other = .ok otherDoc) (rearranges : doc.Rearranges otherDoc) :
    (defect? other = none ↔
        ∀ state ∈ doc.stateNames, ∃ row, otherDoc.row? (.str state) = some row) ∧
      (doc.symbolNames ≠ [] → defect? other = none) ∧
      (defect? other = none → ∃ otherDfa, ofJson other = .ok otherDfa ∧
        (∀ text, otherDfa.run text = dfa.run text) ∧
        (∀ text maxSteps, otherDfa.toMachine.simulate text maxSteps =
          dfa.toMachine.simulate text maxSteps) ∧
        otherDfa.isEmpty = dfa.isEmpty ∧
        (otherDoc.alphabet = doc.alphabet → otherDfa.reachableNames = dfa.reachableNames) ∧
        otherDfa.reachableNames.Perm dfa.reachableNames) := by
  obtain ⟨_, sound, sameEntries, -, rfl⟩ := ofJson_eq_ok_iff.mp read
  rw [entries] at sameEntries
  cases sameEntries
  have checked : defect? other = otherDoc.defect? := by
    unfold defect?
    rw [otherEntries]
  rw [checked]
  refine ⟨rearranges.defect?_eq_none_iff sound, rearranges.defect?_eq_none sound, ?_⟩
  intro valid
  have otherSound := Document.wellFormed_of_defect? valid
  have otherRead : ofJson other = .ok (ofDocument otherDoc otherSound) :=
    ofJson_eq_ok_iff.mpr ⟨otherDoc, otherSound, otherEntries, valid, rfl⟩
  exact ⟨_, otherRead, rearranges.run_eq sound otherSound, rearranges.simulate_eq sound otherSound,
    (rearranges.morphism sound otherSound).isEmpty_eq,
    rearranges.reachableNames_eq sound otherSound, rearranges.perm_reachableNames sound otherSound⟩

/-- A root with two leaves, of which one accepts. -/
def forkDescription : Description where
  states := ["root", "left", "right"]
  alphabet := ["l", "r"]
  transitions := .ofList [
    ("root", .ofList [("l", "left"), ("r", "right")]),
    ("left", .ofList [("l", "left"), ("r", "left")]),
    ("right", .ofList [("l", "right"), ("r", "right")])]
  startState := "root"
  acceptStates := ["right"]

/-- The same with the names in another order, the accepting state named twice, a row of another
state, and another entry in a row. -/
def rearrangedFork : Document where
  states := .ofTexts ["right", "root", "left"]
  alphabet := .ofTexts ["r", "l"]
  transitions := .obj [
    ("lost", .int 7),
    ("right", .obj [("r", .str "right"), ("l", .str "right")]),
    ("left", .obj [("r", .str "left"), ("l", .str "left")]),
    ("root", .obj [("x", .str "lost"), ("r", .str "right"), ("l", .str "left")])]
  start := .str "root"
  accept := .ofTexts ["right", "right"]

/-- It differs from the other description in order, in repetitions and in what nothing reads. -/
theorem rearranges_fork : forkDescription.entries.Rearranges rearrangedFork where
  states_eq := rfl
  states_nodup := by decide
  mem_states := fun _ => List.Perm.mem_iff (by decide)
  alphabet_eq := rfl
  alphabet_nodup := by decide
  mem_alphabet := fun _ => List.Perm.mem_iff (by decide)
  start_eq := rfl
  accept_eq := rfl
  mem_accept := by
    intro name
    change name ∈ ["right", "right"] ↔ name ∈ ["right"]
    simp
  target_eq := by decide

/-- The fork and its rearrangement agree, also when the object has a member that is no entry. -/
theorem agree_fork :
    ∃ value dfa otherDfa, Document.ofJson value = .ok rearrangedFork ∧
      ofJson forkDescription.toJson = .ok dfa ∧ ofJson value = .ok otherDfa ∧
      (otherDfa.run "rl").accepted = true ∧ otherDfa.run "rl" = dfa.run "rl" ∧
      otherDfa.toMachine.simulate "rl" 3 = dfa.toMachine.simulate "rl" 3 ∧
      otherDfa.isEmpty = dfa.isEmpty ∧ otherDfa.reachableNames.Perm dfa.reachableNames := by
  let value : Json := .obj [("comment", .null), ("accept_states", rearrangedFork.accept),
    ("transitions", rearrangedFork.transitions), ("start_state", rearrangedFork.start),
    ("alphabet", rearrangedFork.alphabet), ("states", rearrangedFork.states)]
  obtain ⟨dfa, read⟩ : ∃ dfa, ofJson forkDescription.toJson = .ok dfa :=
    exists_ofJson_eq_ok_iff.mpr rfl
  have entries : Document.ofJson value = .ok rearrangedFork := rfl
  obtain ⟨-, sound, agree⟩ :=
    agree_of_rearranges read forkDescription.ofJson_toJson entries rearranges_fork
  obtain ⟨otherDfa, otherRead, runs, records, empty, -, found⟩ := agree (sound (by decide))
  refine ⟨value, dfa, otherDfa, entries, read, otherRead, ?_, runs "rl", records "rl" 3, empty,
    found⟩
  cases otherRead
  rfl

/-- One state without transitions. -/
def loneDescription : Description where
  states := ["q0"]
  alphabet := []
  transitions := .ofList [("q0", .ofList [])]
  startState := "q0"
  acceptStates := ["q0"]

/-- The same without the empty row. -/
def rowlessDescription : Description := { loneDescription with transitions := .empty }

/-- Without symbols, a rearranged description can lack a row, and is refused for that. -/
theorem defect?_rowless :
    defect? loneDescription.toJson = none ∧
      loneDescription.entries.Rearranges rowlessDescription.entries ∧
      defect? rowlessDescription.toJson = some (.noRow (.str "q0")) := by
  refine ⟨rfl, ?_, rfl⟩
  exact {
    states_eq := rfl
    states_nodup := by decide
    mem_states := fun name => Iff.rfl
    alphabet_eq := rfl
    alphabet_nodup := by decide
    mem_alphabet := fun name => Iff.rfl
    start_eq := rfl
    accept_eq := rfl
    mem_accept := fun name => Iff.rfl
    target_eq := by
      intro state _ symbol listed
      cases listed }

end Dfa

end AutomataKit
