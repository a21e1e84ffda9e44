import AutomataKit.Dfa.Basic
import AutomataKit.Dfa.Defect

/-!
# Reading an automaton from a description

A `Dfa.Document` holds the five entries of a description as they were found. `Document.defect?`
looks for its first defect, in a fixed order: the lists of names, the transitions state by state
and within a state symbol by symbol, the start state, the accepting states.

`Document.WellFormed` says what a description without defect amounts to, in terms of names
alone; `Document.wellFormed_of_defect?` derives it, and `Dfa.ofDocument` builds the automaton
from it. So building needs no check of its own, and `Dfa.ofJson` fails exactly where a defect is
found.
-/

namespace AutomataKit

namespace Dfa

/-- The entries of a description of an automaton, not yet checked. -/
structure Document where
  states : Json
  alphabet : Json
  transitions : Json
  start : Json
  accept : Json

namespace Document

/-- The entries of a description, of which none may be missing. Other entries are ignored. -/
def ofJson : Json → Except Defect Document
  | .obj members =>
    let fetch (entry : Entry) : Except Defect Json :=
      match members.lookup entry.key with
      | some value => .ok value
      | none => .error (.missing entry)
    return {
      states := ← fetch .states
      alphabet := ← fetch .alphabet
      transitions := ← fetch .transitions
      start := ← fetch .startState
      accept := ← fetch .acceptStates }
  | _ => .error .notObject

/-! ## Looking for defects -/

/-- The row of a state, if the transitions are an object that has one under its name. -/
def row? (doc : Document) (state : Json) : Option (List (String × Json)) :=
  match Json.member? doc.transitions.members state with
  | some (.obj row) => some row
  | _ => none

/-- The defect of an entry that has to be a list of names. -/
def namesDefect? (entry : Entry) : Json → Option Defect
  | .arr items => if Json.Distinct items then none else some (.repeated entry)
  | _ => some (.notList entry)

/-- The defect of the entry for a symbol in the row of a state. -/
def targetDefect? (doc : Document) (state : Json) (row : List (String × Json)) (symbol : Json) :
    Option Defect :=
  match Json.member? row symbol with
  | none => some (.noTarget state symbol)
  | some target =>
    if target.Among doc.states.items then none else some (.unknownTarget state symbol target)

/-- The first defect of the transitions from a state, symbol by symbol. -/
def rowDefect? (doc : Document) (state : Json) : Option Defect :=
  match doc.row? state with
  | none => some (.noRow state)
  | some row => doc.alphabet.items.findSome? (doc.targetDefect? state row)

/-- The first defect of the transitions, state by state. -/
def transitionsDefect? (doc : Document) : Option Defect :=
  match doc.transitions with
  | .obj _ => doc.states.items.findSome? doc.rowDefect?
  | _ => some .transitionsNotObject

/-- The defect of a start state that is none of the states. -/
def startDefect? (doc : Document) : Option Defect :=
  if doc.start.Among doc.states.items then none else some .unknownStart

/-- The first defect of the accepting states, among which repetitions are allowed. -/
def acceptDefect? (doc : Document) : Option Defect :=
  match doc.accept with
  | .arr items =>
    (items.find? fun state => ¬ state.Among doc.states.items).map Defect.unknownAccept
  | _ => some (.notList .acceptStates)

/-- The first defect of a description with five entries. The entries are checked one after the
other. -/
def defect? (doc : Document) : Option Defect :=
  namesDefect? .states doc.states <|> namesDefect? .alphabet doc.alphabet <|>
    doc.transitionsDefect? <|> doc.startDefect? <|> doc.acceptDefect?

/-! ## Descriptions without defect -/

/-- The states that are strings. -/
def stateNames (doc : Document) : List String := doc.states.items.filterMap Json.text?

/-- The symbols that are strings. -/
def symbolNames (doc : Document) : List String := doc.alphabet.items.filterMap Json.text?

/-- The accepting states that are strings. -/
def acceptNames (doc : Document) : List String := doc.accept.items.filterMap Json.text?

/-- The name to which a description leads from the name of a state and the name of a symbol. -/
def target? (doc : Document) (state symbol : String) : Option String :=
  ((doc.row? (.str state)).bind fun row => row.lookup symbol).bind Json.text?

/-- A description of an automaton, in terms of names: every value that has to be a name is a
string, the names of states and those of symbols are distinct, and every transition, the start
state and the accepting states are among the states. -/
structure WellFormed (doc : Document) : Prop where
  states_eq : doc.states = .ofTexts doc.stateNames
  alphabet_eq : doc.alphabet = .ofTexts doc.symbolNames
  accept_eq : doc.accept = .ofTexts doc.acceptNames
  states_nodup : doc.stateNames.Nodup
  alphabet_nodup : doc.symbolNames.Nodup
  target_mem : ∀ state ∈ doc.stateNames, ∀ symbol ∈ doc.symbolNames,
    ∃ target ∈ doc.stateNames, doc.target? state symbol = some target
  start_mem : ∃ start ∈ doc.stateNames, doc.start = .str start
  accept_mem : ∀ state ∈ doc.acceptNames, state ∈ doc.stateNames

/-- A list of names is accepted when its elements are distinct names. -/
theorem namesDefect?_eq_none_iff {entry : Entry} {value : Json} :
    namesDefect? entry value = none ↔ ∃ items, value = .arr items ∧ Json.Distinct items := by
  cases value <;> simp [namesDefect?]

/-- A symbol is accepted when the row has a target for it that is one of the states. -/
theorem targetDefect?_eq_none_iff {doc : Document} {state : Json} {row : List (String × Json)}
    {symbol : Json} :
    doc.targetDefect? state row symbol = none ↔
      ∃ target, Json.member? row symbol = some target ∧ target.Among doc.states.items := by
  unfold targetDefect?
  cases Json.member? row symbol <;> simp

/-- A state is accepted when it has a row that is accepted symbol by symbol. -/
theorem rowDefect?_eq_none_iff {doc : Document} {state : Json} :
    doc.rowDefect? state = none ↔
      ∃ row, doc.row? state = some row ∧
        ∀ symbol ∈ doc.alphabet.items, doc.targetDefect? state row symbol = none := by
  unfold rowDefect?
  cases doc.row? state <;> simp

/-- A state that has a row is a string, because the rows are members of an object. -/
theorem exists_str_of_row? {doc : Document} {state : Json} {row : List (String × Json)}
    (found : doc.row? state = some row) : ∃ text, state = .str text := by
  unfold row? at found
  split at found
  · rename_i stored
    obtain ⟨text, equal, -⟩ := Json.member?_eq_some_iff.mp stored
    exact ⟨text, equal⟩
  · cases found

/-- The transitions are accepted when they are an object that is accepted state by state. -/
theorem transitionsDefect?_eq_none_iff {doc : Document} :
    doc.transitionsDefect? = none ↔
      (∃ members, doc.transitions = .obj members) ∧
        ∀ state ∈ doc.states.items, doc.rowDefect? state = none := by
  unfold transitionsDefect?
  cases doc.transitions <;> simp

/-- A start state is accepted when it is one of the states. -/
theorem startDefect?_eq_none_iff {doc : Document} :
    doc.startDefect? = none ↔ doc.start.Among doc.states.items := by
  simp [startDefect?]

/-- The accepting states are accepted when they are a list of states. -/
theorem acceptDefect?_eq_none_iff {doc : Document} :
    doc.acceptDefect? = none ↔
      ∃ items, doc.accept = .arr items ∧ ∀ state ∈ items, state.Among doc.states.items := by
  unfold acceptDefect?
  cases doc.accept <;> simp

/-- A description is accepted when every check passes. -/
theorem defect?_eq_none_iff {doc : Document} :
    doc.defect? = none ↔
      namesDefect? .states doc.states = none ∧ namesDefect? .alphabet doc.alphabet = none ∧
        doc.transitionsDefect? = none ∧ doc.startDefect? = none ∧ doc.acceptDefect? = none := by
  simp [defect?, Option.or_eq_none_iff]

/-- A description without defect is well formed. There is a state, because the start state is one;
so every symbol is a name in its row, and all names turn out to be strings. -/
theorem wellFormed_of_defect? {doc : Document} (sound : doc.defect? = none) : doc.WellFormed := by
  obtain ⟨statesSound, alphabetSound, transitionsSound, startSound, acceptSound⟩ :=
    defect?_eq_none_iff.mp sound
  obtain ⟨states, statesList, statesDistinct⟩ := namesDefect?_eq_none_iff.mp statesSound
  obtain ⟨symbols, symbolsList, symbolsDistinct⟩ := namesDefect?_eq_none_iff.mp alphabetSound
  obtain ⟨-, rowsSound⟩ := transitionsDefect?_eq_none_iff.mp transitionsSound
  rw [startDefect?_eq_none_iff] at startSound
  obtain ⟨accepting, acceptList, acceptAmong⟩ := acceptDefect?_eq_none_iff.mp acceptSound
  have statesItems : doc.states.items = states := by rw [statesList]; rfl
  have symbolsItems : doc.alphabet.items = symbols := by rw [symbolsList]; rfl
  have statesText : states = doc.stateNames.map .str := by
    unfold stateNames
    rw [statesItems]
    refine Json.eq_map_str fun state member => ?_
    obtain ⟨row, found, -⟩ := rowDefect?_eq_none_iff.mp (rowsSound state (statesItems ▸ member))
    exact exists_str_of_row? found
  rw [statesItems] at startSound rowsSound acceptAmong
  have startString := Json.exists_of_among (statesText ▸ startSound)
  have symbolsText : symbols = doc.symbolNames.map .str := by
    unfold symbolNames
    rw [symbolsItems]
    refine Json.eq_map_str fun symbol member => ?_
    obtain ⟨start, present, -⟩ := startString
    obtain ⟨row, -, targetsSound⟩ := rowDefect?_eq_none_iff.mp
      (rowsSound (.str start) (statesText ▸ List.mem_map_of_mem present))
    obtain ⟨target, stored, -⟩ := targetDefect?_eq_none_iff.mp
      (targetsSound symbol (symbolsItems ▸ member))
    obtain ⟨text, equal, -⟩ := Json.member?_eq_some_iff.mp stored
    exact ⟨text, equal⟩
  have acceptText : accepting = doc.acceptNames.map .str := by
    unfold acceptNames
    rw [show doc.accept.items = accepting by rw [acceptList]; rfl]
    refine Json.eq_map_str fun state member => ?_
    obtain ⟨text, -, equal⟩ := Json.exists_of_among (statesText ▸ acceptAmong state member)
    exact ⟨text, equal⟩
  refine ⟨?_, ?_, ?_, ?_, ?_, ?_, startString, ?_⟩
  · rw [statesList, Json.ofTexts, ← statesText]
  · rw [symbolsList, Json.ofTexts, ← symbolsText]
  · rw [acceptList, Json.ofTexts, ← acceptText]
  · exact (Json.distinct_strings_iff _).mp (statesText ▸ statesDistinct)
  · exact (Json.distinct_strings_iff _).mp (symbolsText ▸ symbolsDistinct)
  · intro state present symbol known
    obtain ⟨row, found, targetsSound⟩ := rowDefect?_eq_none_iff.mp
      (rowsSound (.str state) (statesText ▸ List.mem_map_of_mem present))
    obtain ⟨target, stored, among⟩ := targetDefect?_eq_none_iff.mp (targetsSound (.str symbol)
      (by rw [symbolsItems, symbolsText]; exact List.mem_map_of_mem known))
    obtain ⟨text, equal, stored⟩ := Json.member?_eq_some_iff.mp stored
    rw [statesItems] at among
    obtain ⟨name, member, rfl⟩ := Json.exists_of_among (statesText ▸ among)
    obtain rfl : symbol = text := by simpa using equal
    exact ⟨name, member, by simp [target?, found, stored]⟩
  · intro state member
    have among := acceptAmong (.str state) (acceptText ▸ List.mem_map_of_mem member)
    exact (Json.str_among_iff _ _).mp (statesText ▸ among)

end Document

/-! ## Building the automaton -/

/-- In a well-formed description the names of a state and of a symbol lead to the name of a state.
-/
theorem Document.WellFormed.target_get {doc : Document} (sound : doc.WellFormed)
    (state : Fin doc.stateNames.length) (symbol : Fin doc.symbolNames.length) :
    ∃ found : (doc.target? doc.stateNames[state] doc.symbolNames[symbol]).isSome,
      (doc.target? doc.stateNames[state] doc.symbolNames[symbol]).get found ∈ doc.stateNames := by
  obtain ⟨target, member, equal⟩ :=
    sound.target_mem _ (List.getElem_mem state.isLt) _ (List.getElem_mem symbol.isLt)
  refine ⟨by simp [equal], ?_⟩
  simpa [equal] using member

/-- The state to which a description leads from a state and a symbol. -/
def Document.targetIndex (doc : Document) (sound : doc.WellFormed)
    (state : Fin doc.stateNames.length) (symbol : Fin doc.symbolNames.length) :
    Fin doc.stateNames.length :=
  let target := (doc.target? doc.stateNames[state] doc.symbolNames[symbol]).get
    (sound.target_get state symbol).1
  ⟨doc.stateNames.idxOf target, List.idxOf_lt_length_of_mem (sound.target_get state symbol).2⟩

/-- The place of the start state among the states. -/
def Document.startIndex (doc : Document) (sound : doc.WellFormed) : Fin doc.stateNames.length :=
  ⟨doc.stateNames.idxOf (doc.start.text?.getD ""), List.idxOf_lt_length_of_mem (by
    obtain ⟨start, member, equal⟩ := sound.start_mem
    rw [equal]
    exact member)⟩

/-- The automaton that a well-formed description describes. -/
def ofDocument (doc : Document) (sound : doc.WellFormed) : Dfa where
  states := doc.stateNames
  alphabet := doc.symbolNames
  table := Vector.ofFn fun state => Vector.ofFn fun symbol => doc.targetIndex sound state symbol
  start := doc.startIndex sound
  accepting := Vector.ofFn fun state => doc.acceptNames.contains doc.stateNames[state]
  states_nodup := sound.states_nodup
  alphabet_nodup := sound.alphabet_nodup

/-- The first defect of a value, if it describes no automaton. -/
def defect? (value : Json) : Option Defect :=
  match Document.ofJson value with
  | .error defect => some defect
  | .ok doc => doc.defect?

/-- Whether a value describes an automaton. -/
def valid (value : Json) : Bool := (defect? value).isNone

/-- Read an automaton from a description, or say what is first wrong with it. -/
def ofJson (value : Json) : Except Defect Dfa := do
  let doc ← Document.ofJson value
  match found : doc.defect? with
  | some defect => .error defect
  | none => .ok (ofDocument doc (Document.wellFormed_of_defect? found))

/-- A value is read as an automaton when it has five entries without defect, from which the
automaton is built. -/
theorem ofJson_eq_ok_iff {value : Json} {dfa : Dfa} :
    ofJson value = .ok dfa ↔
      ∃ (doc : Document) (sound : doc.WellFormed), Document.ofJson value = .ok doc ∧
        doc.defect? = none ∧ ofDocument doc sound = dfa := by
  unfold ofJson
  cases Document.ofJson value with
  | error defect => simp [bind, Except.bind]
  | ok doc =>
    change (match found : doc.defect? with | some defect => _ | none => _) = _ ↔ _
    constructor
    · intro built
      split at built
      · cases built
      · rename_i found
        exact ⟨doc, _, rfl, found, Except.ok.inj built⟩
    · rintro ⟨_, sound, ⟨⟩, found, rfl⟩
      split
      · rename_i other
        cases found.symm.trans other
      · rfl

/-- Reading fails with the first defect. -/
theorem ofJson_eq_error_iff {value : Json} {defect : Defect} :
    ofJson value = .error defect ↔ defect? value = some defect := by
  unfold ofJson defect?
  cases Document.ofJson value with
  | error first => simp [bind, Except.bind]
  | ok doc =>
    change (match found : doc.defect? with | some defect => _ | none => _) = _ ↔ doc.defect? = _
    split
    · rename_i first found
      simp [found]
    · rename_i found
      simp [found]

/-- An automaton is read exactly from a value without defect. -/
theorem exists_ofJson_eq_ok_iff {value : Json} :
    (∃ dfa, ofJson value = .ok dfa) ↔ defect? value = none := by
  unfold defect?
  constructor
  · rintro ⟨dfa, read⟩
    obtain ⟨doc, -, entries, found, -⟩ := ofJson_eq_ok_iff.mp read
    rw [entries]
    exact found
  · intro found
    cases entries : Document.ofJson value with
    | error defect =>
      rw [entries] at found
      cases found
    | ok doc =>
      rw [entries] at found
      exact ⟨_, ofJson_eq_ok_iff.mpr ⟨doc, Document.wellFormed_of_defect? found, entries, found,
        rfl⟩⟩

end Dfa

end AutomataKit
