import AutomataKit.Proofs.Dfa.Interning
import AutomataKit.Proofs.Dfa.Morphism

/-!
# Descriptions that differ from one another

An object that describes an automaton describes another one when entries are replaced
(`Dfa.Document.ofJson_withMember`, `Dfa.Document.ofJson_writeInto`).

How the two automata are related shows in the names. Where a renaming of the states takes one
description to the other, on the states that the first one has, it makes a morphism between the two
automata (`Dfa.Document.Renames.morphism`). The other description may have more states.
-/

namespace AutomataKit

/-- An object with a value for a member: in place of the value that it had, or at the end. -/
def Json.withMember (object : Json) (name : String) (value : Json) : Json :=
  match object with
  | .obj members => .obj (OrderedMap.assign name value members)
  | other => other

namespace Dfa

namespace Document

/-! ## Replacing entries -/

/-- The document with another value for one of its entries. -/
def withEntry (doc : Document) (value : Json) : Entry → Document
  | .states => { doc with states := value }
  | .alphabet => { doc with alphabet := value }
  | .transitions => { doc with transitions := value }
  | .startState => { doc with start := value }
  | .acceptStates => { doc with accept := value }

/-- An object with these entries in place of its own; its other members stay. -/
def writeInto (doc : Document) (value : Json) : Json :=
  ((((value.withMember "states" doc.states).withMember "alphabet" doc.alphabet).withMember
    "transitions" doc.transitions).withMember "start_state" doc.start).withMember
    "accept_states" doc.accept

variable {doc other : Document} {value : Json}

/-- Replacing a member of a value replaces the entry that is read from it. -/
theorem ofJson_withMember (entries : ofJson value = .ok doc) (entry : Entry) (replaced : Json) :
    ofJson (value.withMember entry.key replaced) = .ok (doc.withEntry replaced entry) := by
  obtain ⟨members, rfl, states, alphabet, transitions, start, accept⟩ :=
    ofJson_eq_ok_iff.mp entries
  refine ofJson_eq_ok_iff.mpr ⟨_, rfl, ?_⟩
  cases entry <;>
    simp [OrderedMap.lookup_assign, Entry.key, withEntry, states, alphabet, transitions, start,
      accept]

theorem ofJson_writeInto (entries : ofJson value = .ok doc) :
    ofJson (other.writeInto value) = .ok other := by
  have states := ofJson_withMember entries .states other.states
  have alphabet := ofJson_withMember states .alphabet other.alphabet
  have transitions := ofJson_withMember alphabet .transitions other.transitions
  have start := ofJson_withMember transitions .startState other.start
  exact ofJson_withMember start .acceptStates other.accept

/-- Replacing the entries of a description by those of a sound one describes the other automaton. -/
theorem ofJson_writeInto_of_sound (entries : ofJson value = .ok doc) (valid : other.defect? = none)
    (otherSound : other.WellFormed) :
    Dfa.ofJson (other.writeInto value) = .ok (ofDocument other otherSound) :=
  Dfa.ofJson_eq_ok_iff.mpr ⟨other, otherSound, ofJson_writeInto entries, valid, rfl⟩

/-! ## Renaming the states -/

/-- The states of a description, renamed, are states of the other one that start, lead on and accept
as they do; the symbols are the same. -/
structure Renames (rename : String → String) (doc other : Document) : Prop where
  mem_states : ∀ name ∈ doc.stateNames, rename name ∈ other.stateNames
  mem_alphabet : ∀ name, name ∈ other.symbolNames ↔ name ∈ doc.symbolNames
  startName_eq : other.startName = rename doc.startName
  target_eq : ∀ state ∈ doc.stateNames, ∀ symbol ∈ doc.symbolNames,
    other.target? (rename state) symbol = (doc.target? state symbol).map rename
  mem_accept : ∀ name ∈ doc.stateNames, rename name ∈ other.acceptNames ↔ name ∈ doc.acceptNames

namespace Renames

variable {rename : String → String} (renames : doc.Renames rename other) (sound : doc.WellFormed)
  (otherSound : other.WellFormed)

include renames

theorem name_start_eq :
    (ofDocument other otherSound).name (ofDocument other otherSound).start =
      rename ((ofDocument doc sound).name (ofDocument doc sound).start) := by
  rw [name_start_ofDocument, name_start_ofDocument, renames.startName_eq]

/-- From states that correspond, symbols of one name lead to states that correspond. -/
theorem name_next_eq (state : (ofDocument doc sound).State)
    (symbol : (ofDocument doc sound).Symbol) (image : (ofDocument other otherSound).State)
    (letter : (ofDocument other otherSound).Symbol)
    (sameState :
      (ofDocument other otherSound).name image = rename ((ofDocument doc sound).name state))
    (sameSymbol :
      (ofDocument other otherSound).label letter = (ofDocument doc sound).label symbol) :
    (ofDocument other otherSound).name ((ofDocument other otherSound).next image letter) =
      rename ((ofDocument doc sound).name ((ofDocument doc sound).next state symbol)) := by
  have imageLeads := target?_name_label otherSound image letter
  have same := renames.target_eq ((ofDocument doc sound).name state)
    (List.getElem_mem state.isLt) ((ofDocument doc sound).label symbol)
    (List.getElem_mem symbol.isLt)
  rw [sameState, sameSymbol, same, target?_name_label, Option.map_some] at imageLeads
  exact (Option.some.inj imageLeads).symm

theorem accepts_eq (state : (ofDocument doc sound).State)
    (image : (ofDocument other otherSound).State)
    (same : (ofDocument other otherSound).name image = rename ((ofDocument doc sound).name state)) :
    (ofDocument other otherSound).accepts image = (ofDocument doc sound).accepts state := by
  rw [Bool.eq_iff_iff, accepts_ofDocument_iff, accepts_ofDocument_iff, same]
  exact renames.mem_accept _ (List.getElem_mem state.isLt)

/-- States correspond as the renaming says, and symbols to those of the same name. -/
def morphism : Morphism rename (ofDocument doc sound) (ofDocument other otherSound) :=
  .ofNames (fun state => renames.mem_states _ (List.getElem_mem state.isLt)) renames.mem_alphabet
    (renames.name_start_eq sound otherSound) (renames.name_next_eq sound otherSound)
    (renames.accepts_eq sound otherSound)

end Renames

end Document

end Dfa

end AutomataKit
