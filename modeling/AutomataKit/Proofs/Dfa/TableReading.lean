import AutomataKit.Proofs.Dfa.Interning
import AutomataKit.Proofs.Dfa.Tables

/-!
# Building tables never fails on a checked value

The checks look up only what can be a name, because the lists of names come first: so they always
give their verdict (`Dfa.check_eq_ok`). When it is that there is no defect, every name is found that
is looked up while the tables are built, and the tables are those of the automaton that the value
describes (`Dfa.Tables.represents_of_ofJson`).
-/

namespace AutomataKit

namespace Dfa

/-! ## Passing over a list without failure -/

/-- Where each look succeeds, the first hit is found as without risk. -/
theorem findSomeM?_eq_ok {ε α β : Type} {items : List α} {each : α → Except ε (Option β)}
    {result : α → Option β} (succeeds : ∀ item ∈ items, each item = .ok (result item)) :
    items.findSomeM? each = .ok (items.findSome? result) := by
  induction items with
  | nil => rfl
  | cons item rest ih =>
    have later := ih fun other member => succeeds other (List.mem_cons_of_mem item member)
    rw [List.findSomeM?, succeeds item List.mem_cons_self, later, List.findSome?_cons]
    cases result item <;> rfl

/-- Where each step succeeds, the results are those of the steps without risk. -/
theorem mapM_eq_ok {ε α β : Type} {items : List α} {each : α → Except ε β} {result : α → β}
    (succeeds : ∀ item ∈ items, each item = .ok (result item)) :
    items.mapM each = .ok (items.map result) := by
  induction items with
  | nil => rfl
  | cons item rest ih =>
    have later := ih fun other member => succeeds other (List.mem_cons_of_mem item member)
    rw [List.mapM_cons, succeeds item List.mem_cons_self, later]
    rfl

theorem mapM_zipIdx_eq_ok {ε α β : Type} {items : List α} {each : α → Nat → Except ε β}
    {result : Fin items.length → β}
    (succeeds : ∀ place : Fin items.length, each items[place] place = .ok (result place)) :
    items.zipIdx.mapM (fun (item, place) => each item place) =
      .ok ((List.finRange items.length).map result) := by
  have places : items.zipIdx =
      (List.finRange items.length).map fun place => (items[place], place.val) :=
    List.ext_getElem (by simp) fun _ _ _ => by simp
  rw [places, List.mapM_map]
  exact mapM_eq_ok fun place _ => succeeds place

/-! ## The checks -/

/-- A name can be looked up among members. -/
theorem seek_eq_ok {name : Json} (named : name.key?.isSome) (members : List (String × Json)) :
    seek members name = .ok (Json.member? members name) :=
  if_pos named

/-- What is stored under a name is fetched. -/
theorem fetch_eq_ok {members : List (String × Json)} {name found : Json}
    (stored : Json.member? members name = some found) :
    fetch (.obj members) name = .ok found := by
  obtain ⟨text, rfl, -⟩ := Json.member?_eq_some_iff.mp stored
  have sought := seek_eq_ok (rfl : (Json.str text).key?.isSome = true) members
  exact bind_eq_ok_iff.mpr ⟨members, rfl, bind_eq_ok_iff.mpr ⟨some found, stored ▸ sought, rfl⟩⟩

variable {doc : Document}

/-- A target is checked without a fault, because only names are looked up. -/
theorem checkTarget_eq_ok (state : Json) (row : List (String × Json)) {symbol : Json}
    (named : symbol.key?.isSome) :
    checkTarget doc.states.items state row symbol = .ok (doc.targetDefect? state row symbol) := by
  apply bind_eq_ok_iff.mpr ⟨_, seek_eq_ok named row, ?_⟩
  unfold Document.targetDefect?
  cases stored : Json.member? row symbol with
  | none => rfl
  | some target => exact bind_eq_ok_iff.mpr ⟨target, fetch_eq_ok stored, rfl⟩

/-- A row is checked without a fault, because only names are looked up. -/
theorem checkRow_eq_ok {rows : List (String × Json)} (transitions : doc.transitions = .obj rows)
    (symbolsNamed : ∀ symbol ∈ doc.alphabet.items, symbol.key?.isSome) {state : Json}
    (named : state.key?.isSome) :
    checkRow doc.states.items doc.alphabet.items rows state = .ok (doc.rowDefect? state) := by
  apply bind_eq_ok_iff.mpr ⟨_, seek_eq_ok named rows, ?_⟩
  unfold Document.rowDefect? Document.row?
  rw [transitions, Json.members]
  cases Json.member? rows state with
  | none => rfl
  | some value =>
    cases value with
    | obj row =>
      exact findSomeM?_eq_ok fun symbol member =>
        checkTarget_eq_ok state row (symbolsNamed symbol member)
    | null | bool value | int value | float value | str text | arr items => rfl

/-- A list that passes the check of names holds names only. -/
theorem named_of_namesDefect? {entry : Entry} {value : Json}
    (sound : Document.namesDefect? entry value = none) :
    ∀ name ∈ value.items, name.key?.isSome := by
  obtain ⟨items, rfl, named, -⟩ := Document.namesDefect?_eq_none_iff.mp sound
  exact named

/-- Looking at the transitions comes after the lists of names, so it looks up names only. -/
theorem checkDocument_eq_ok (doc : Document) : checkDocument doc = .ok doc.defect? := by
  unfold checkDocument Document.defect?
  cases statesSound : Document.namesDefect? .states doc.states with
  | some defect => rfl
  | none =>
    cases alphabetSound : Document.namesDefect? .alphabet doc.alphabet with
    | some defect => rfl
    | none =>
      unfold Document.transitionsDefect?
      cases transitions : doc.transitions with
      | obj rows =>
        have rowsChecked := findSomeM?_eq_ok fun state member =>
          checkRow_eq_ok transitions (named_of_namesDefect? alphabetSound)
            (named_of_namesDefect? statesSound state member)
        refine bind_eq_ok_iff.mpr ⟨_, rowsChecked, ?_⟩
        cases doc.states.items.findSome? doc.rowDefect? <;> rfl
      | null | bool value | int value | float value | str text | arr items => rfl

/-- **The checks always give their verdict.** -/
theorem check_eq_ok (value : Json) : check value = .ok (defect? value) := by
  unfold check defect?
  cases Document.ofJson value with
  | error defect => rfl
  | ok doc => exact checkDocument_eq_ok doc

/-! ## Names and their positions -/

theorem mapM_str_eq_ok {β : Type} {names : List String} {each : Json → Except Fault β}
    {result : String → β} (succeeds : ∀ name ∈ names, each (.str name) = .ok (result name)) :
    (names.map Json.str).mapM each = .ok (names.map result) := by
  rw [List.mapM_map]
  exact mapM_eq_ok succeeds

/-- A list of strings has their texts as its names. -/
theorem namesOf_ofTexts (names : List String) : namesOf (.ofTexts names) = .ok names := by
  refine bind_eq_ok_iff.mpr ⟨names.map Json.str, rfl, ?_⟩
  rw [mapM_str_eq_ok fun name _ => (rfl : textOf (.str name) = .ok name), List.map_id']

/-- The dictionary of positions has every name, with its position in the list. -/
theorem positionOf_eq_ok {names : List String} (distinct : names.Nodup) {name : String}
    (member : name ∈ names) :
    positionOf (.ofList names.zipIdx) (.str name) = .ok (names.idxOf name) := by
  have keys : names.zipIdx.map Prod.fst = names := by simp
  have stored : (OrderedMap.ofList names.zipIdx).find? name = some (names.idxOf name) := by
    rw [OrderedMap.ofList_eq_of_nodup (keys.symm ▸ distinct), OrderedMap.find?_eq_some_iff,
      List.mem_zipIdx_iff_getElem?, List.getElem?_eq_getElem (List.idxOf_lt_length_of_mem member),
      List.getElem_idxOf]
  refine bind_eq_ok_iff.mpr ⟨name, rfl, ?_⟩
  rw [stored]

/-- An index inside a list has an entry. -/
theorem entryAt_eq_ok {α : Type} {entries : List α} {index : Nat}
    (inside : index < entries.length) : entryAt entries index = .ok entries[index] := by
  unfold entryAt
  rw [List.getElem?_eq_getElem inside]

theorem entryAt_map_eq_ok {α β : Type} (write : α → β) {entries : List α} {index : Nat}
    (inside : index < entries.length) :
    entryAt (entries.map write) index = .ok (write entries[index]) := by
  rw [entryAt_eq_ok (by rwa [List.length_map]), List.getElem_map]

namespace Tables

/-- **What the tables of an automaton are.** They have its names, and its transitions, start state
and accepting states by their positions. -/
structure Represents (tables : Tables) (dfa : Dfa) : Prop where
  states_eq : tables.states = dfa.states
  symbols_eq : tables.symbols = dfa.alphabet
  step_eq : ∀ (state : dfa.State) (symbol : dfa.Symbol),
    tables.step state symbol = .ok (dfa.next state symbol).val
  start_eq : tables.start = dfa.start
  mem_accepting_iff : ∀ index,
    index ∈ tables.accepting ↔ ∃ state : dfa.State, state.val = index ∧ dfa.accepts state = true

variable {value : Json}

/-- In a sound description the target of a state and a symbol is found, and has the position of its
name. -/
theorem targetOf_eq_ok {members : List (String × Json)} {doc : Document} (sound : doc.WellFormed)
    (entry : members.lookup "transitions" = some doc.transitions) {state symbol : String}
    (known : state ∈ doc.stateNames) (listed : symbol ∈ doc.symbolNames) :
    targetOf (.obj members) (.ofList doc.stateNames.zipIdx) state symbol =
      .ok (doc.stateNames.idxOf ((doc.target? state symbol).getD "")) := by
  obtain ⟨target, member, leads⟩ := sound.target_mem state known symbol listed
  obtain ⟨row, found, stored⟩ := Document.target?_eq_some_iff.mp leads
  obtain ⟨rows, transitions, rowStored⟩ := Document.exists_rows_of_row? found
  rw [transitions] at entry
  have rowFound : fetch (.obj members) (.str Entry.transitions.key) = .ok (.obj rows) :=
    fetch_eq_ok entry
  refine bind_eq_ok_iff.mpr ⟨_, rowFound, ?_⟩
  refine bind_eq_ok_iff.mpr ⟨_, fetch_eq_ok rowStored, ?_⟩
  refine bind_eq_ok_iff.mpr ⟨_, fetch_eq_ok stored, ?_⟩
  rw [leads]
  exact positionOf_eq_ok sound.states_nodup member

/-- The tables that are built from a description. -/
theorem ofJson_eq_ok {doc : Document} (entries : Document.ofJson value = .ok doc)
    (sound : doc.WellFormed) :
    ofJson value = .ok
      { states := doc.stateNames
        symbols := doc.symbolNames
        rows := doc.stateNames.map fun state => doc.symbolNames.map fun symbol =>
          doc.stateNames.idxOf ((doc.target? state symbol).getD "")
        start := doc.stateNames.idxOf doc.startName
        accepting := doc.acceptNames.map doc.stateNames.idxOf } := by
  obtain ⟨members, rfl, statesEntry, alphabetEntry, transitionsEntry, startEntry, acceptEntry⟩ :=
    Document.ofJson_eq_ok_iff.mp entries
  rw [sound.states_eq] at statesEntry
  rw [sound.alphabet_eq] at alphabetEntry
  rw [sound.start_eq] at startEntry
  rw [sound.accept_eq] at acceptEntry
  refine bind_eq_ok_iff.mpr ⟨_, fetch_eq_ok statesEntry, ?_⟩
  refine bind_eq_ok_iff.mpr ⟨_, namesOf_ofTexts _, ?_⟩
  refine bind_eq_ok_iff.mpr ⟨_, fetch_eq_ok alphabetEntry, ?_⟩
  refine bind_eq_ok_iff.mpr ⟨_, namesOf_ofTexts _, ?_⟩
  refine bind_eq_ok_iff.mpr ⟨_, mapM_eq_ok fun state known => mapM_eq_ok fun symbol listed =>
    targetOf_eq_ok sound transitionsEntry known listed, ?_⟩
  refine bind_eq_ok_iff.mpr ⟨_, fetch_eq_ok startEntry, ?_⟩
  refine bind_eq_ok_iff.mpr ⟨_, positionOf_eq_ok sound.states_nodup sound.startName_mem, ?_⟩
  refine bind_eq_ok_iff.mpr ⟨_, fetch_eq_ok acceptEntry, ?_⟩
  refine bind_eq_ok_iff.mpr ⟨doc.acceptNames.map Json.str, rfl, ?_⟩
  exact bind_eq_ok_iff.mpr ⟨_, mapM_str_eq_ok fun name accepted =>
    positionOf_eq_ok sound.states_nodup (sound.accept_mem name accepted), rfl⟩

/-- The position of a state's name is the state. -/
theorem idxOf_name (dfa : Dfa) (state : dfa.State) : dfa.states.idxOf (dfa.name state) = state :=
  dfa.states_nodup.idxOf_getElem state.val state.isLt

/-- **The tables of a description.** They are built without failure and represent the automaton that
is read from it. -/
theorem represents_of_ofJson {dfa : Dfa} (read : Dfa.ofJson value = .ok dfa) :
    ∃ tables, ofJson value = .ok tables ∧ tables.Represents dfa := by
  obtain ⟨doc, sound, entries, -, rfl⟩ := Dfa.ofJson_eq_ok_iff.mp read
  refine ⟨_, ofJson_eq_ok entries sound, ?_⟩
  refine { states_eq := rfl, symbols_eq := rfl, step_eq := ?_, start_eq := rfl,
           mem_accepting_iff := ?_ }
  · intro state symbol
    refine bind_eq_ok_iff.mpr ⟨_, entryAt_map_eq_ok _ state.isLt, ?_⟩
    refine (entryAt_map_eq_ok _ symbol.isLt).trans (congrArg Except.ok ?_)
    have leads := target?_name_label sound state symbol
    change doc.stateNames.idxOf ((doc.target? ((ofDocument doc sound).name state)
      ((ofDocument doc sound).label symbol)).getD "") = _
    rw [leads]
    exact idxOf_name (ofDocument doc sound) _
  · intro index
    rw [List.mem_map]
    constructor
    · rintro ⟨name, accepted, rfl⟩
      have inside := List.idxOf_lt_length_of_mem (sound.accept_mem name accepted)
      have named : (ofDocument doc sound).name ⟨doc.stateNames.idxOf name, inside⟩ = name :=
        List.getElem_idxOf inside
      refine ⟨⟨doc.stateNames.idxOf name, inside⟩, rfl, ?_⟩
      rw [accepts_ofDocument_iff, named]
      exact accepted
    · rintro ⟨state, rfl, accepts⟩
      rw [accepts_ofDocument_iff] at accepts
      refine ⟨(ofDocument doc sound).name state, accepts, ?_⟩
      exact idxOf_name (ofDocument doc sound) state

-- Without the checks a look-up can fail: here a transition leads out of the states.
example :
    ofJson (.obj [("states", .ofTexts ["inside"]), ("alphabet", .ofTexts ["a"]),
        ("transitions", .obj [("inside", .obj [("a", .str "outside")])]),
        ("start_state", .str "inside"), ("accept_states", .ofTexts [])]) =
      .error (.noKey (.str "outside")) :=
  rfl

end Tables

end Dfa

end AutomataKit
