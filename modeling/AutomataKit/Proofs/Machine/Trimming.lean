import AutomataKit.Proofs.Dfa.SearchOrder
import AutomataKit.Proofs.Dfa.Variation
import AutomataKit.Proofs.Machine.Morphism

/-!
# Descriptions without unreachable states

States of a description that contain the start state and are not left by any transition can be
described alone (`Dfa.Document.IsClosed`). The states that are reachable from the start state are
such. Described alone they have other positions, but the same names, so the automaton has the same
runs and its language is empty or not as before; searching it finds all its states, in the order in
which they are listed.

The names that a machine adds are chosen to differ from those of the states. With fewer states there
is less to avoid, so the added names can be others; nothing else in a record changes
(`Dfa.restrict_reachable_ofJson`).
-/

namespace AutomataKit

namespace Dfa

namespace Document

/-- States of the description that contain the start state and are not left by any transition. -/
structure IsClosed (doc : Document) (names : List String) : Prop where
  nodup : names.Nodup
  mem_states : ∀ name ∈ names, name ∈ doc.stateNames
  start_mem : doc.startName ∈ names
  target_mem : ∀ state ∈ names, ∀ symbol ∈ doc.symbolNames, ∀ target,
    doc.target? state symbol = some target → target ∈ names

/-- The description with some of its states only: the others have no row and do not accept. -/
def restrict (doc : Document) (names : List String) : Document :=
  { doc with
    states := .ofTexts names
    transitions := .obj (doc.transitions.members.filter fun row => row.1 ∈ names)
    accept := .ofTexts (doc.acceptNames.filter (· ∈ names)) }

section

variable (doc : Document) (names : List String)

@[simp] theorem stateNames_restrict : (doc.restrict names).stateNames = names :=
  Json.filterMap_text?_map_str names

@[simp] theorem acceptNames_restrict :
    (doc.restrict names).acceptNames = doc.acceptNames.filter (· ∈ names) :=
  Json.filterMap_text?_map_str _

variable {doc names}

theorem row?_restrict {state : String} (kept : state ∈ names) :
    (doc.restrict names).row? (.str state) = doc.row? (.str state) := by
  have stored : (doc.restrict names).transitions.members.lookup state =
      doc.transitions.members.lookup state := by
    have filtered := OrderedMap.lookup_filter (· ∈ names) state doc.transitions.members
    rwa [if_pos (decide_eq_true kept)] at filtered
  unfold row?
  rw [Json.member?_str, Json.member?_str, stored]

theorem target?_restrict {state : String} (kept : state ∈ names) (symbol : String) :
    (doc.restrict names).target? state symbol = doc.target? state symbol := by
  unfold target?
  rw [row?_restrict kept]

end

variable {doc : Document} {names : List String}

namespace IsClosed

variable (closed : doc.IsClosed names)

include closed

/-- **Closed states can be described alone.** -/
theorem defect?_restrict (valid : doc.defect? = none) : (doc.restrict names).defect? = none := by
  have formed := wellFormed_of_defect? valid
  obtain ⟨-, alphabetNodup, complete, -⟩ :=
    (defect?_eq_none_iff_of_rows formed.states_eq formed.alphabet_eq formed.start_eq
      formed.accept_eq).mp valid
  have states : (doc.restrict names).states = .ofTexts names := rfl
  refine (defect?_eq_none_iff_of_rows states formed.alphabet_eq formed.start_eq rfl).mpr
    ⟨closed.nodup, alphabetNodup, ?_, closed.start_mem, ?_⟩
  · intro state kept
    obtain ⟨⟨row, found⟩, leads⟩ := complete state (closed.mem_states state kept)
    refine ⟨⟨row, (row?_restrict kept).trans found⟩, fun symbol listed => ?_⟩
    obtain ⟨target, -, entry⟩ := leads symbol listed
    exact ⟨target, closed.target_mem state kept symbol listed target entry,
      (target?_restrict kept symbol).trans entry⟩
  · intro state accepting
    exact of_decide_eq_true (List.mem_filter.mp accepting).2

/-- Keeping the rows of a closed set of states renames nothing. -/
theorem renames_restrict : (doc.restrict names).Renames id doc where
  mem_states := by
    rw [stateNames_restrict]
    exact closed.mem_states
  mem_alphabet := fun _ => Iff.rfl
  startName_eq := rfl
  target_eq := by
    rw [stateNames_restrict]
    intro state kept symbol _
    rw [target?_restrict kept, Option.map_id]
    rfl
  mem_accept := by
    rw [stateNames_restrict, acceptNames_restrict]
    intro name kept
    rw [List.mem_filter, decide_eq_true_eq, and_iff_left kept]
    rfl

end IsClosed

/-- The reachable states are closed: a word that leads to a state can be continued. -/
theorem isClosed_reachableNames (sound : doc.WellFormed) :
    doc.IsClosed (ofDocument doc sound).reachableNames where
  nodup := (ofDocument doc sound).nodup_reachableNames
  mem_states := by
    intro name found
    obtain ⟨state, -, rfl⟩ := List.mem_map.mp found
    exact List.getElem_mem state.isLt
  start_mem := (mem_reachableNames_iff sound _).mpr ⟨[], nofun, rfl⟩
  target_mem := by
    intro state found symbol listed target leads
    obtain ⟨word, symbols, reaches⟩ := (mem_reachableNames_iff sound state).mp found
    refine (mem_reachableNames_iff sound target).mpr ⟨word ++ [symbol], ?_, ?_⟩
    · intro other member
      rcases List.mem_append.mp member with earlier | last
      · exact symbols other earlier
      · exact List.mem_singleton.mp last ▸ listed
    · unfold follow? at reaches ⊢
      rw [List.foldlM_append, reaches]
      simp [leads]

end Document

/-- **Unreachable states can be removed.** What is left describes an automaton with the same runs
and the same decision on emptiness, all of whose states are reachable. The machines make the same
records, up to the names of the accept state and of the reject state. -/
theorem restrict_reachable_ofJson {value : Json} {dfa : Dfa} (read : ofJson value = .ok dfa) :
    ∃ doc, Document.ofJson value = .ok doc ∧ ∃ trimmed,
      ofJson ((doc.restrict dfa.reachableNames).writeInto value) = .ok trimmed ∧
      (∀ text, trimmed.run text = dfa.run text) ∧
      trimmed.isEmpty = dfa.isEmpty ∧
      trimmed.reachableNames = dfa.reachableNames ∧
      trimmed.states = dfa.reachableNames ∧
      ∀ text maxSteps, dfa.toMachine.simulate text maxSteps =
        (trimmed.toMachine.simulate text maxSteps).rename (trimmed.translate dfa id) := by
  obtain ⟨doc, sound, entries, valid, rfl⟩ := ofJson_eq_ok_iff.mp read
  have closed := Document.isClosed_reachableNames sound
  have trimmedValid := closed.defect?_restrict valid
  have trimmedSound := Document.wellFormed_of_defect? trimmedValid
  -- It goes from what is left to the whole, where every name that is left still stands.
  have morphism := closed.renames_restrict.morphism trimmedSound sound
  refine ⟨doc, entries, _,
    Document.ofJson_writeInto_of_sound entries trimmedValid trimmedSound, ?_, ?_, ?_, ?_, ?_⟩
  · intro text
    rw [morphism.run_eq, Run.rename_id]
  · exact morphism.isEmpty_eq.symm
  · have found := morphism.reachableNames_eq (fun _ _ _ _ same => same) rfl
    rw [List.map_id] at found
    exact found.symm
  · exact doc.stateNames_restrict _
  · exact morphism.simulate_translate

/-- Two states that lead to each other, and one that is not reached but has the name that the accept
state of a machine is given first. -/
def blockedDescription : Description where
  states := ["q_accept", "in", "out"]
  alphabet := ["x"]
  transitions := .ofList [
    ("out", .ofList [("x", "in")]),
    ("q_accept", .ofList [("x", "out")]),
    ("in", .ofList [("x", "out")])]
  startState := "out"
  acceptStates := ["in", "q_accept"]

/-- The automaton of this description. -/
def blocked : Dfa where
  states := ["q_accept", "in", "out"]
  alphabet := ["x"]
  table := #v[#v[2], #v[2], #v[1]]
  start := 2
  accepting := #v[true, true, false]
  states_nodup := by decide
  alphabet_nodup := by decide

/-- Without the state that is not reached its name is free, and the machine takes it. -/
theorem restrict_blocked :
    ofJson blockedDescription.toJson = .ok blocked ∧ blocked.toMachine.accept = "q_accept'" ∧
      ∃ trimmed, ofJson ((blockedDescription.entries.restrict ["out", "in"]).writeInto
          blockedDescription.toJson) = .ok trimmed ∧
        trimmed.states = ["out", "in"] ∧ trimmed.toMachine.accept = "q_accept" ∧
        trimmed.run "xx?" = blocked.run "xx?" ∧
        blocked.toMachine.simulate "x" 2 =
          (trimmed.toMachine.simulate "x" 2).rename (trimmed.translate blocked id) := by
  have read : ofJson blockedDescription.toJson = .ok blocked := rfl
  have found : blocked.reachableNames = ["out", "in"] := by decide +kernel
  obtain ⟨doc, entries, trimmed, trimmedRead, runs, -, -, states, records⟩ :=
    restrict_reachable_ofJson read
  cases entries
  rw [found] at trimmedRead states
  have accept : trimmed.toMachine.accept = "q_accept" := by
    change freshName "q_accept" trimmed.states = "q_accept"
    rw [states]
    decide +kernel
  exact ⟨read, by decide +kernel, trimmed, trimmedRead, states, accept, runs "xx?", records "x" 2⟩

end Dfa

end AutomataKit
