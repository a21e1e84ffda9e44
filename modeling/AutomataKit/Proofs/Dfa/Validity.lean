import AutomataKit.Dfa.Description
import AutomataKit.Dfa.Document

/-!
# Which values describe an automaton

`Dfa.IsDescription` says in terms of strings which JSON values describe an automaton. The checks ask
less of the values one by one: no check demands that a name is a string, or that there is a state at
all. Taken together they accept exactly the descriptions (`Dfa.defect?_eq_none_iff_isDescription`),
because the start state has to be a state, a state has to be found among the members of the
transitions, and a symbol among the members of a row.
-/

namespace AutomataKit

namespace Dfa

/-- The members of an object describe an automaton with the given names. -/
structure Describes (members : List (String × Json)) (states alphabet : List String)
    (start : String) (accept : List String) : Prop where
  states_entry : members.lookup "states" = some (.ofTexts states)
  states_ne_nil : states ≠ []
  states_nodup : states.Nodup
  alphabet_entry : members.lookup "alphabet" = some (.ofTexts alphabet)
  alphabet_nodup : alphabet.Nodup
  /-- Every state has a row, and in it every symbol leads to a state. -/
  transitions_entry : ∃ rows, members.lookup "transitions" = some (.obj rows) ∧
    ∀ state ∈ states, ∃ row, rows.lookup state = some (.obj row) ∧
      ∀ symbol ∈ alphabet, ∃ target ∈ states, row.lookup symbol = some (.str target)
  start_entry : members.lookup "start_state" = some (.str start)
  start_mem : start ∈ states
  accept_entry : members.lookup "accept_states" = some (.ofTexts accept)
  accept_mem : ∀ state ∈ accept, state ∈ states

/-- The value is an object that describes an automaton. -/
def IsDescription (value : Json) : Prop :=
  ∃ members states alphabet start accept,
    value = .obj members ∧ Describes members states alphabet start accept

theorem bind_eq_ok_iff {ε α β : Type} {first : Except ε α} {next : α → Except ε β} {result : β} :
    (first >>= next) = .ok result ↔ ∃ value, first = .ok value ∧ next value = .ok result := by
  cases first with
  | error failure => simp [bind, Except.bind]
  | ok value => simp [bind, Except.bind]

namespace Document

/-- An entry that is asked for is found or missing. -/
theorem fetched_eq_ok_iff (members : List (String × Json)) (entry : Entry) (found : Json) :
    (match members.lookup entry.key with
      | some value => Except.ok value
      | none => .error (Defect.missing entry)) = .ok found ↔
    members.lookup entry.key = some found := by
  cases members.lookup entry.key <;> simp

/-- The entries of a description are the five members of an object with their names. -/
theorem ofJson_eq_ok_iff {value : Json} {doc : Document} :
    ofJson value = .ok doc ↔
      ∃ members, value = .obj members ∧
        members.lookup "states" = some doc.states ∧
        members.lookup "alphabet" = some doc.alphabet ∧
        members.lookup "transitions" = some doc.transitions ∧
        members.lookup "start_state" = some doc.start ∧
        members.lookup "accept_states" = some doc.accept := by
  cases value with
  | obj members =>
    have fetched := fetched_eq_ok_iff members
    unfold ofJson
    simp only [bind_eq_ok_iff, Json.obj.injEq]
    constructor
    · rintro ⟨_, states, _, alphabet, _, transitions, _, start, _, accept, ⟨⟩⟩
      exact ⟨members, rfl, (fetched _ _).mp states, (fetched _ _).mp alphabet,
        (fetched _ _).mp transitions, (fetched _ _).mp start, (fetched _ _).mp accept⟩
    · rintro ⟨_, rfl, states, alphabet, transitions, start, accept⟩
      exact ⟨_, (fetched .states _).mpr states, _, (fetched .alphabet _).mpr alphabet, _,
        (fetched .transitions _).mpr transitions, _, (fetched .startState _).mpr start, _,
        (fetched .acceptStates _).mpr accept, rfl⟩
  | null | bool value | int value | float value | str text | arr items => simp [ofJson]

variable {doc : Document} {states alphabet accept : List String} {start : String}

theorem namesDefect?_ofTexts (entry : Entry) (texts : List String) :
    namesDefect? entry (.ofTexts texts) = none ↔ texts.Nodup := by
  rw [namesDefect?_eq_none_iff, ← Json.distinct_strings_iff]
  constructor
  · rintro ⟨items, ⟨⟩, distinct⟩
    exact distinct
  · exact fun distinct => ⟨_, rfl, distinct⟩

theorem row?_str_eq_some_iff {state : String} {row : List (String × Json)} :
    doc.row? (.str state) = some row ↔
      doc.transitions.members.lookup state = some (.obj row) := by
  unfold row?
  rw [Json.member?_str]
  split
  · rename_i stored
    simp [stored]
  · rename_i other
    constructor
    · intro found
      cases found
    · intro stored
      exact absurd stored (other row)

/-- Only an object has rows. -/
theorem exists_rows_of_row? {state : String} {row : List (String × Json)}
    (found : doc.row? (.str state) = some row) :
    ∃ rows, doc.transitions = .obj rows ∧ rows.lookup state = some (.obj row) := by
  rw [row?_str_eq_some_iff] at found
  cases transitions : doc.transitions with
  | obj rows =>
    rw [transitions] at found
    exact ⟨rows, rfl, found⟩
  | null | bool value | int value | float value | str text | arr items =>
    rw [transitions] at found
    cases found

/-- A transition of a description stands in the row of its state. -/
theorem target?_eq_some_iff {state symbol target : String} :
    doc.target? state symbol = some target ↔
      ∃ row, doc.row? (.str state) = some row ∧ row.lookup symbol = some (.str target) := by
  unfold target?
  simp only [Option.bind_eq_some_iff, Json.text?_eq_some_iff]
  constructor
  · rintro ⟨_, ⟨row, found, stored⟩, rfl⟩
    exact ⟨row, found, stored⟩
  · rintro ⟨row, found, stored⟩
    exact ⟨_, ⟨row, found, stored⟩, rfl⟩

/-- A row without defect leads from every symbol to a state. -/
theorem rowDefect?_str_eq_none_iff (statesEntry : doc.states = .ofTexts states)
    (alphabetEntry : doc.alphabet = .ofTexts alphabet) (state : String) :
    doc.rowDefect? (.str state) = none ↔
      ∃ row, doc.transitions.members.lookup state = some (.obj row) ∧
        ∀ symbol ∈ alphabet, ∃ target ∈ states, row.lookup symbol = some (.str target) := by
  have target (row : List (String × Json)) (symbol : String) :
      doc.targetDefect? (.str state) row (.str symbol) = none ↔
        ∃ target ∈ states, row.lookup symbol = some (.str target) := by
    rw [targetDefect?_eq_none_iff, statesEntry]
    change (∃ target, row.lookup symbol = some target ∧
      target.Among (states.map .str)) ↔ _
    constructor
    · rintro ⟨_, stored, among⟩
      obtain ⟨name, member, rfl⟩ := Json.exists_of_among among
      exact ⟨name, member, stored⟩
    · rintro ⟨name, member, stored⟩
      exact ⟨_, stored, (Json.str_among_iff name states).mpr member⟩
  simp only [rowDefect?_eq_none_iff, row?_str_eq_some_iff, alphabetEntry, Json.ofTexts,
    Json.items, List.forall_mem_map, target]

/-- Where all names are strings, the checks say what they seem to say. -/
theorem defect?_eq_none_iff_of_texts (statesEntry : doc.states = .ofTexts states)
    (alphabetEntry : doc.alphabet = .ofTexts alphabet) (startEntry : doc.start = .str start)
    (acceptEntry : doc.accept = .ofTexts accept) :
    doc.defect? = none ↔
      states.Nodup ∧ alphabet.Nodup ∧
        (∃ rows, doc.transitions = .obj rows ∧
          ∀ state ∈ states, ∃ row, rows.lookup state = some (.obj row) ∧
            ∀ symbol ∈ alphabet, ∃ target ∈ states, row.lookup symbol = some (.str target)) ∧
        start ∈ states ∧ ∀ state ∈ accept, state ∈ states := by
  have items : doc.states.items = states.map .str := by
    rw [statesEntry]
    rfl
  rw [defect?_eq_none_iff, statesEntry, namesDefect?_ofTexts, alphabetEntry,
    namesDefect?_ofTexts, transitionsDefect?_eq_none_iff, startDefect?_eq_none_iff,
    acceptDefect?_eq_none_iff, items, startEntry, acceptEntry, Json.str_among_iff]
  simp only [List.forall_mem_map, rowDefect?_str_eq_none_iff statesEntry alphabetEntry]
  refine and_congr_right fun _ => and_congr_right fun _ =>
    and_congr ?_ (and_congr_right fun _ => ?_)
  · constructor
    · rintro ⟨⟨rows, transitions⟩, sound⟩
      rw [transitions] at sound
      exact ⟨rows, transitions, sound⟩
    · rintro ⟨rows, transitions, sound⟩
      rw [transitions]
      exact ⟨⟨rows, rfl⟩, sound⟩
  · constructor
    · rintro ⟨_, ⟨⟩, among⟩ state member
      exact (Json.str_among_iff state states).mp (among _ (List.mem_map_of_mem member))
    · intro members
      refine ⟨_, rfl, List.forall_mem_map.mpr fun state member => ?_⟩
      exact (Json.str_among_iff state states).mpr (members state member)

/-- Where all names are strings, the transitions have a row for every state, and in it a state for
every symbol. That they are an object need not be said, because there is a state. -/
theorem defect?_eq_none_iff_of_rows (statesEntry : doc.states = .ofTexts states)
    (alphabetEntry : doc.alphabet = .ofTexts alphabet) (startEntry : doc.start = .str start)
    (acceptEntry : doc.accept = .ofTexts accept) :
    doc.defect? = none ↔
      states.Nodup ∧ alphabet.Nodup ∧
        (∀ state ∈ states, (∃ row, doc.row? (.str state) = some row) ∧
          ∀ symbol ∈ alphabet, ∃ target ∈ states, doc.target? state symbol = some target) ∧
        start ∈ states ∧ ∀ state ∈ accept, state ∈ states := by
  rw [defect?_eq_none_iff_of_texts statesEntry alphabetEntry startEntry acceptEntry]
  refine and_congr_right fun _ => and_congr_right fun _ => ?_
  constructor
  · rintro ⟨⟨rows, transitions, complete⟩, members⟩
    refine ⟨fun state member => ?_, members⟩
    obtain ⟨row, stored, leads⟩ := complete state member
    have found : doc.row? (.str state) = some row := by
      rw [row?_str_eq_some_iff, transitions]
      exact stored
    refine ⟨⟨row, found⟩, fun symbol listed => ?_⟩
    obtain ⟨target, among, entry⟩ := leads symbol listed
    exact ⟨target, among, target?_eq_some_iff.mpr ⟨row, found, entry⟩⟩
  · rintro ⟨complete, members⟩
    obtain ⟨⟨_, first⟩, -⟩ := complete start members.1
    obtain ⟨rows, transitions, -⟩ := exists_rows_of_row? first
    refine ⟨⟨rows, transitions, fun state member => ?_⟩, members⟩
    obtain ⟨⟨row, found⟩, leads⟩ := complete state member
    have stored := row?_str_eq_some_iff.mp found
    rw [transitions] at stored
    refine ⟨row, stored, fun symbol listed => ?_⟩
    obtain ⟨target, among, follows⟩ := leads symbol listed
    obtain ⟨same, sameFound, entry⟩ := target?_eq_some_iff.mp follows
    rw [found] at sameFound
    cases sameFound
    exact ⟨target, among, entry⟩

/-- A description without defect is one of strings: the names are found, not asked for. -/
theorem exists_describes_of_defect? {members : List (String × Json)}
    (entries : ofJson (.obj members) = .ok doc) (sound : doc.defect? = none) :
    ∃ states alphabet start accept, Describes members states alphabet start accept := by
  obtain ⟨_, ⟨⟩, statesFound, alphabetFound, transitionsFound, startFound, acceptFound⟩ :=
    ofJson_eq_ok_iff.mp entries
  have formed := wellFormed_of_defect? sound
  obtain ⟨start, startMember, startEntry⟩ := formed.start_mem
  obtain ⟨statesNodup, alphabetNodup, ⟨rows, transitions, targets⟩, -, acceptMembers⟩ :=
    (defect?_eq_none_iff_of_texts formed.states_eq formed.alphabet_eq startEntry
      formed.accept_eq).mp sound
  refine ⟨doc.stateNames, doc.symbolNames, start, doc.acceptNames, ?_⟩
  exact {
    states_entry := formed.states_eq ▸ statesFound
    states_ne_nil := List.ne_nil_of_mem startMember
    states_nodup := statesNodup
    alphabet_entry := formed.alphabet_eq ▸ alphabetFound
    alphabet_nodup := alphabetNodup
    transitions_entry := ⟨rows, transitions ▸ transitionsFound, targets⟩
    start_entry := startEntry ▸ startFound
    start_mem := startMember
    accept_entry := formed.accept_eq ▸ acceptFound
    accept_mem := acceptMembers }

/-- A description in terms of strings has no defect. -/
theorem defect?_of_describes {members : List (String × Json)}
    (describes : Describes members states alphabet start accept) :
    ∃ doc, ofJson (.obj members) = .ok doc ∧ doc.defect? = none := by
  obtain ⟨rows, transitions, targets⟩ := describes.transitions_entry
  refine ⟨⟨.ofTexts states, .ofTexts alphabet, .obj rows, .str start, .ofTexts accept⟩, ?_, ?_⟩
  · exact ofJson_eq_ok_iff.mpr ⟨members, rfl, describes.states_entry, describes.alphabet_entry,
      transitions, describes.start_entry, describes.accept_entry⟩
  · exact (defect?_eq_none_iff_of_texts rfl rfl rfl rfl).mpr ⟨describes.states_nodup,
      describes.alphabet_nodup, ⟨rows, rfl, targets⟩, describes.start_mem, describes.accept_mem⟩

end Document

/-- **What the checks accept.** A value has no defect exactly when it describes an automaton; the
verdict alone says the same, and then an automaton is read from it. -/
theorem defect?_eq_none_iff_isDescription (value : Json) :
    (defect? value = none ↔ IsDescription value) ∧
      (valid value = true ↔ IsDescription value) ∧
      ((∃ dfa, ofJson value = .ok dfa) ↔ IsDescription value) := by
  have described : defect? value = none ↔ IsDescription value := by
    unfold defect?
    constructor
    · intro sound
      cases entries : Document.ofJson value with
      | error defect =>
        rw [entries] at sound
        cases sound
      | ok doc =>
        rw [entries] at sound
        obtain ⟨members, rfl, -⟩ := Document.ofJson_eq_ok_iff.mp entries
        obtain ⟨states, alphabet, start, accept, describes⟩ :=
          Document.exists_describes_of_defect? entries sound
        exact ⟨members, states, alphabet, start, accept, rfl, describes⟩
    · rintro ⟨members, states, alphabet, start, accept, rfl, describes⟩
      obtain ⟨doc, entries, sound⟩ := Document.defect?_of_describes describes
      rw [entries]
      exact sound
  refine ⟨described, ?_, exists_ofJson_eq_ok_iff.trans described⟩
  unfold valid
  rw [Option.isNone_iff_eq_none, described]

/-- The entries of a description in terms of texts. -/
def Description.entries (description : Description) : Document where
  states := .ofTexts description.states
  alphabet := .ofTexts description.alphabet
  transitions := .ofMap (.ofMap .str) description.transitions
  start := .str description.startState
  accept := .ofTexts description.acceptStates

theorem Description.ofJson_toJson (description : Description) :
    Document.ofJson description.toJson = .ok description.entries :=
  rfl

/-- Written out, a description in terms of texts describes what it says, when its names are distinct
and every transition, the start state and the accepting states are among the states. -/
theorem Description.isDescription_toJson (description : Description)
    (states_nodup : description.states.Nodup) (alphabet_nodup : description.alphabet.Nodup)
    (targets : ∀ state ∈ description.states,
      ∃ row, description.transitions.find? state = some row ∧
        ∀ symbol ∈ description.alphabet, ∃ target ∈ description.states,
          row.find? symbol = some target)
    (start_mem : description.startState ∈ description.states)
    (accept_mem : ∀ state ∈ description.acceptStates, state ∈ description.states) :
    IsDescription description.toJson := by
  refine ⟨_, description.states, description.alphabet, description.startState,
    description.acceptStates, rfl, ?_⟩
  refine {
    states_entry := rfl
    states_ne_nil := List.ne_nil_of_mem start_mem
    states_nodup
    alphabet_entry := rfl
    alphabet_nodup
    transitions_entry := ⟨_, rfl, ?_⟩
    start_entry := rfl
    start_mem
    accept_entry := rfl
    accept_mem }
  intro state member
  obtain ⟨row, stored, leads⟩ := targets state member
  refine ⟨row.entries.map fun entry => (entry.1, .str entry.2), ?_, ?_⟩
  · rw [OrderedMap.lookup_map_snd, show description.transitions.entries.lookup state = some row
      from stored]
    rfl
  · intro symbol known
    obtain ⟨target, among, found⟩ := leads symbol known
    refine ⟨target, among, ?_⟩
    rw [OrderedMap.lookup_map_snd, show row.entries.lookup symbol = some target from found]
    rfl

end Dfa

end AutomataKit
