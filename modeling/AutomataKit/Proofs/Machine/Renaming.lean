import AutomataKit.Proofs.Dfa.Variation
import AutomataKit.Proofs.Machine.Morphism

/-!
# Descriptions under other names for the states

The states of a description can be given other names, as long as different states get different
names (`Dfa.Document.IsRenamed`). Whatever the new names are, also those that a machine gives to its
own states, what is left describes an automaton that differs from the first one in these names only
(`Dfa.renamed_ofJson`).

The names of the accept state and of the reject state of a machine have to differ from the new names
instead of the old ones. So they are not renamed as states are, but correspond to each other
(`Dfa.translate`).
-/

namespace AutomataKit

namespace Dfa

namespace Document

/-- The other description is the description with its states renamed. Nothing is said of rows of
other names and of entries for other symbols. -/
structure IsRenamed (rename : String → String) (doc other : Document) : Prop where
  states_eq : other.states = .ofTexts (doc.stateNames.map rename)
  alphabet_eq : other.alphabet = doc.alphabet
  row_exists : ∀ state ∈ doc.stateNames, ∃ row, other.row? (.str (rename state)) = some row
  target_eq : ∀ state ∈ doc.stateNames, ∀ symbol ∈ doc.symbolNames,
    other.target? (rename state) symbol = (doc.target? state symbol).map rename
  start_eq : other.start = .str (rename doc.startName)
  accept_eq : other.accept = .ofTexts (doc.acceptNames.map rename)

/-- The end of a transition under the new names. -/
def renameTarget (rename : String → String) : Json → Json
  | .str name => .str (rename name)
  | other => other

theorem text?_renameTarget (rename : String → String) (target : Json) :
    (renameTarget rename target).text? = target.text?.map rename := by
  cases target <;> rfl

/-- The row of a state under the new names. -/
def renamedRow (doc : Document) (rename : String → String) (state : String) :
    List (String × Json) :=
  ((doc.row? (.str state)).getD []).map fun entry => (entry.1, renameTarget rename entry.2)

/-- The description with its states renamed. Rows of other names are left out. -/
def renameStates (doc : Document) (rename : String → String) : Document where
  states := .ofTexts (doc.stateNames.map rename)
  alphabet := doc.alphabet
  transitions :=
    .obj (doc.stateNames.map fun state => (rename state, .obj (doc.renamedRow rename state)))
  start := .str (rename doc.startName)
  accept := .ofTexts (doc.acceptNames.map rename)

variable {doc other : Document} {rename : String → String}

section

variable (sound : doc.WellFormed)
  (injective : ∀ first ∈ doc.stateNames, ∀ second ∈ doc.stateNames,
    rename first = rename second → first = second)

include sound injective

theorem nodup_map_rename : (doc.stateNames.map rename).Nodup :=
  List.pairwise_map.mpr (sound.states_nodup.imp_of_mem fun first second different same =>
    different (injective _ first _ second same))

/-- The row of a state stands under its new name. -/
theorem row?_renameStates {state : String} (known : state ∈ doc.stateNames) :
    (doc.renameStates rename).row? (.str (rename state)) = some (doc.renamedRow rename state) := by
  have keys : (doc.renameStates rename).transitions.members.map Prod.fst =
      doc.stateNames.map rename := List.map_map
  rw [row?_str_eq_some_iff, OrderedMap.lookup_eq_some_iff_mem
    (keys ▸ nodup_map_rename sound injective)]
  exact List.mem_map.mpr ⟨state, known, rfl⟩

theorem isRenamed_renameStates (complete : ∀ state ∈ doc.stateNames,
    ∃ row, doc.row? (.str state) = some row) : doc.IsRenamed rename (doc.renameStates rename) where
  states_eq := rfl
  alphabet_eq := rfl
  row_exists := fun _ known => ⟨_, row?_renameStates sound injective known⟩
  target_eq := by
    intro state known symbol _
    obtain ⟨row, found⟩ := complete state known
    unfold target?
    rw [row?_renameStates sound injective known, renamedRow, found, Option.getD_some,
      Option.bind_some, Option.bind_some, OrderedMap.lookup_map_snd, Option.bind_map,
      Option.map_bind]
    exact congrArg _ (funext (text?_renameTarget rename))
  start_eq := rfl
  accept_eq := rfl

end

namespace IsRenamed

variable (renamed : doc.IsRenamed rename other)

include renamed

theorem stateNames_eq : other.stateNames = doc.stateNames.map rename := by
  unfold stateNames
  rw [renamed.states_eq]
  exact Json.filterMap_text?_map_str _

theorem symbolNames_eq : other.symbolNames = doc.symbolNames := by
  unfold symbolNames
  rw [renamed.alphabet_eq]

theorem acceptNames_eq : other.acceptNames = doc.acceptNames.map rename := by
  unfold acceptNames
  rw [renamed.accept_eq]
  exact Json.filterMap_text?_map_str _

variable (sound : doc.WellFormed)
  (injective : ∀ first ∈ doc.stateNames, ∀ second ∈ doc.stateNames,
    rename first = rename second → first = second)

include sound injective

/-- **Renaming keeps a description sound.** -/
theorem defect?_eq_none : other.defect? = none := by
  have alphabetEntry : other.alphabet = .ofTexts doc.symbolNames :=
    renamed.alphabet_eq.trans sound.alphabet_eq
  refine (defect?_eq_none_iff_of_rows renamed.states_eq alphabetEntry renamed.start_eq
    renamed.accept_eq).mpr ⟨nodup_map_rename sound injective, sound.alphabet_nodup, ?_,
      List.mem_map_of_mem sound.startName_mem, ?_⟩
  · refine List.forall_mem_map.mpr fun state known => ⟨renamed.row_exists state known, ?_⟩
    intro symbol listed
    obtain ⟨target, member, leads⟩ := sound.target_mem state known symbol listed
    refine ⟨rename target, List.mem_map_of_mem member, ?_⟩
    rw [renamed.target_eq state known symbol listed, leads, Option.map_some]
  · exact List.forall_mem_map.mpr fun state accepting =>
      List.mem_map_of_mem (sound.accept_mem state accepting)

/-- Different states keep different names, so only accepting states become accepting. -/
theorem renames : doc.Renames rename other where
  mem_states := by
    intro name known
    rw [renamed.stateNames_eq]
    exact List.mem_map_of_mem known
  mem_alphabet := by
    intro name
    rw [renamed.symbolNames_eq]
  startName_eq := by
    unfold startName
    rw [renamed.start_eq]
    rfl
  target_eq := renamed.target_eq
  mem_accept := by
    intro name known
    rw [renamed.acceptNames_eq, List.mem_map]
    constructor
    · rintro ⟨accepting, listed, same⟩
      exact injective accepting (sound.accept_mem accepting listed) name known same ▸ listed
    · intro listed
      exact ⟨name, listed, rfl⟩

end IsRenamed

end Document

/-- **Names of states carry no meaning.** Renaming the states of a description, different ones to
different names, gives the description of an automaton with the renamed runs. The search finds the
renamed states in the same order, and emptiness is decided alike. The machines make the same
records, up to the names of the states: these are renamed, but the accept state of one machine
becomes that of the other, and so does the reject state. -/
theorem renamed_ofJson {value : Json} {dfa : Dfa} (read : ofJson value = .ok dfa)
    {rename : String → String} (injective : ∀ first ∈ dfa.states, ∀ second ∈ dfa.states,
      rename first = rename second → first = second) :
    ∃ doc, Document.ofJson value = .ok doc ∧
      doc.IsRenamed rename (doc.renameStates rename) ∧
      Document.ofJson ((doc.renameStates rename).writeInto value) =
        .ok (doc.renameStates rename) ∧
      ∀ other otherDoc, Document.ofJson other = .ok otherDoc → doc.IsRenamed rename otherDoc →
        ∃ renamed, ofJson other = .ok renamed ∧
          renamed.states = dfa.states.map rename ∧
          (∀ text, renamed.run text = (dfa.run text).rename rename) ∧
          renamed.reachableNames = dfa.reachableNames.map rename ∧
          renamed.isEmpty = dfa.isEmpty ∧
          ∀ text maxSteps, renamed.toMachine.simulate text maxSteps =
            (dfa.toMachine.simulate text maxSteps).rename (dfa.translate renamed rename) := by
  obtain ⟨doc, sound, entries, valid, rfl⟩ := ofJson_eq_ok_iff.mp read
  obtain ⟨-, -, complete, -⟩ := (Document.defect?_eq_none_iff_of_rows sound.states_eq
    sound.alphabet_eq sound.start_eq sound.accept_eq).mp valid
  refine ⟨doc, entries, Document.isRenamed_renameStates sound injective
    fun state known => (complete state known).1, Document.ofJson_writeInto entries, ?_⟩
  intro other otherDoc otherEntries isRenamed
  have otherValid := isRenamed.defect?_eq_none sound injective
  have otherSound := Document.wellFormed_of_defect? otherValid
  have morphism := (isRenamed.renames sound injective).morphism sound otherSound
  exact ⟨_, ofJson_eq_ok_iff.mpr ⟨otherDoc, otherSound, otherEntries, otherValid, rfl⟩,
    isRenamed.stateNames_eq, morphism.run_eq,
    morphism.reachableNames_eq injective isRenamed.symbolNames_eq, morphism.isEmpty_eq,
    morphism.simulate_translate⟩

/-- A lamp that goes through its three settings. -/
def lampDescription : Description where
  states := ["off", "dim", "bright"]
  alphabet := ["s"]
  transitions := .ofList [("off", .ofList [("s", "dim")]), ("dim", .ofList [("s", "bright")]),
    ("bright", .ofList [("s", "off")])]
  startState := "off"
  acceptStates := ["dim", "bright"]

/-- The automaton of this description. -/
def lamp : Dfa where
  states := ["off", "dim", "bright"]
  alphabet := ["s"]
  table := #v[#v[1], #v[2], #v[0]]
  start := 0
  accepting := #v[false, true, true]
  states_nodup := by decide
  alphabet_nodup := by decide

/-- The states get the names that a machine gives first to its accept state and its reject state,
and the name that is next for the accept state. -/
def lampNames (name : String) : String :=
  if name = "dim" then "q_accept" else if name = "bright" then "q_accept'" else "q_reject"

/-- With the first two names taken, the machine of the renamed lamp accepts in another state. -/
theorem renamed_lamp :
    ofJson lampDescription.toJson = .ok lamp ∧
      (∀ first ∈ lamp.states, ∀ second ∈ lamp.states,
        lampNames first = lampNames second → first = second) ∧
      ∃ renamed, ofJson ((lampDescription.entries.renameStates lampNames).writeInto
          lampDescription.toJson) = .ok renamed ∧
        renamed.states = ["q_reject", "q_accept", "q_accept'"] ∧
        lamp.toMachine.accept = "q_accept" ∧ renamed.toMachine.accept = "q_accept''" ∧
        renamed.run "sss" = (lamp.run "sss").rename lampNames ∧
        renamed.toMachine.simulate "s" 2 =
          (lamp.toMachine.simulate "s" 2).rename (lamp.translate renamed lampNames) := by
  have read : ofJson lampDescription.toJson = .ok lamp := rfl
  have injective : ∀ first ∈ lamp.states, ∀ second ∈ lamp.states,
      lampNames first = lampNames second → first = second := by decide
  obtain ⟨doc, entries, isRenamed, written, describes⟩ := renamed_ofJson read injective
  cases entries
  obtain ⟨renamed, renamedRead, states, runs, -, -, records⟩ := describes _ _ written isRenamed
  have accept : renamed.toMachine.accept = "q_accept''" := by
    change freshName "q_accept" renamed.states = "q_accept''"
    rw [states]
    decide +kernel
  exact ⟨read, injective, renamed, renamedRead, states, by decide +kernel, accept, runs "sss",
    records "s" 2⟩

end Dfa

end AutomataKit
