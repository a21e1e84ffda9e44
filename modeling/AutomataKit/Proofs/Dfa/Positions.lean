import AutomataKit.Proofs.Dfa.TableOperations
import AutomataKit.Proofs.Dfa.Variation

/-!
# Positions in place of names

The tables of a description have positions where the description has names. Read back, they say what
the description says (`Dfa.Tables.Faithful`): the rows have the shape of the two lists of names, an
entry leads to the state that is named under the two names, and a position accepts when the name at
it is listed. The automaton that is read from the description answers by position what the tables
hold (`Dfa.Tables.AnswersLike`).

The accepting states are a set. Listing them in another order or more than once gives the same
automaton (`Dfa.ofJson_withMember_acceptStates`).
-/

namespace AutomataKit

namespace Dfa

/-! ## Looking up by position -/

/-- Among distinct names the index of a name is where it stands. -/
theorem idxOf?_eq_some_iff_getElem? {names : List String} (distinct : names.Nodup) {name : String}
    {index : Nat} : names.idxOf? name = some index ↔ names[index]? = some name := by
  rw [List.idxOf?_eq_some_iff, List.getElem?_eq_some_iff]
  constructor
  · rintro ⟨inside, named, -⟩
    exact ⟨inside, named⟩
  · rintro ⟨inside, named⟩
    refine ⟨inside, named, fun earlier before same => ?_⟩
    exact Nat.ne_of_lt before (distinct.getElem_inj_iff.mp (same.trans named.symm))

/-- A place is among the places of some names exactly when its own name is one of them. -/
theorem mem_map_idxOf_iff {names chosen : List String} (distinct : names.Nodup)
    (known : ∀ name ∈ chosen, name ∈ names) (place : Fin names.length) :
    place.val ∈ chosen.map names.idxOf ↔ names[place] ∈ chosen := by
  rw [List.mem_map]
  constructor
  · rintro ⟨name, member, same⟩
    have named : names[names.idxOf name]? = some name := List.getElem?_idxOf (known name member)
    rw [same, List.getElem?_eq_getElem place.isLt] at named
    cases named
    exact member
  · intro member
    exact ⟨_, member, distinct.idxOf_getElem place.val place.isLt⟩

theorem toOption_entryAt {α : Type} (entries : List α) (index : Nat) :
    (entryAt entries index).toOption = entries[index]? := by
  unfold entryAt
  cases entries[index]? <;> rfl

theorem toOption_bind {ε α β : Type} (first : Except ε α) (later : α → Except ε β) :
    (first >>= later).toOption = first.toOption.bind fun result => (later result).toOption := by
  cases first <;> rfl

/-- A natural number is a position counted from the start. -/
theorem position?_natCast (length index : Nat) :
    position? length index = if inside : index < length then some ⟨index, inside⟩ else none := by
  unfold position?
  have nonneg : ¬ (index : Int) < 0 := by omega
  by_cases inside : index < length
  · rw [dif_pos inside, dif_pos (by simp [nonneg, inside])]
    simp [nonneg]
  · rw [dif_neg inside, dif_neg (by simp [nonneg]; omega)]

variable {dfa : Dfa}

/-- A position counted from the start has the name that stands there. -/
theorem nameAt?_natCast (index : Nat) : dfa.nameAt? index = dfa.states[index]? := by
  rw [nameAt?, position?_natCast]
  by_cases inside : index < dfa.states.length
  · rw [dif_pos inside, List.getElem?_eq_getElem inside]
    rfl
  · rw [dif_neg inside, List.getElem?_eq_none (Nat.le_of_not_lt inside)]
    rfl

/-- A position counted from the start accepts when it is that of an accepting state. -/
theorem acceptsAt_natCast_iff (index : Nat) :
    dfa.acceptsAt index = true ↔
      ∃ state : dfa.State, state.val = index ∧ dfa.accepts state = true := by
  simp only [acceptsAt, List.any_eq_true, mem_acceptStates, beq_iff_eq, Int.natCast_inj, and_comm]

namespace Tables

/-! ## Tables and names -/

/-- **Tables that say what a description says.** Positions of states and symbols are those in the
two lists of names. -/
structure Faithful (tables : Tables) (doc : Document) : Prop where
  states_eq : tables.states = doc.stateNames
  symbols_eq : tables.symbols = doc.symbolNames
  length_rows : tables.rows.length = doc.stateNames.length
  length_row : ∀ row ∈ tables.rows, row.length = doc.symbolNames.length
  entry_lt : ∀ row ∈ tables.rows, ∀ entry ∈ row, entry < doc.stateNames.length
  /-- Looking up the entry for two positions, and its name, gives the name of the target. -/
  name_step : ∀ (state : Fin doc.stateNames.length) (symbol : Fin doc.symbolNames.length),
    ∃ next target, tables.step state symbol = .ok next ∧ tables.name next = .ok target ∧
      doc.target? doc.stateNames[state] doc.symbolNames[symbol] = some target
  symbol_eq_some_iff : ∀ name index,
    tables.symbols.idxOf? name = some index ↔ doc.symbolNames[index]? = some name
  symbol_eq_none_iff : ∀ name, tables.symbols.idxOf? name = none ↔ name ∉ doc.symbolNames
  name_start : ∃ start, tables.name tables.start = .ok start ∧ doc.start = .str start
  accepting_lt : ∀ index ∈ tables.accepting, index < doc.stateNames.length
  mem_accepting_iff : ∀ state : Fin doc.stateNames.length,
    state.val ∈ tables.accepting ↔ doc.stateNames[state] ∈ doc.acceptNames

/-- Tables that hold what an automaton answers by position. -/
structure AnswersLike (tables : Tables) (dfa : Dfa) : Prop where
  rows_eq : tables.rows = dfa.table.toList.map fun row => row.toList.map Fin.val
  start_eq : tables.start = dfa.start
  name_eq : ∀ state : Nat, (tables.name state).toOption = dfa.nameAt? state
  step_eq : ∀ state symbol : Nat,
    (tables.step state symbol).toOption = (dfa.nextAt? state symbol).map Fin.val
  symbol_eq : ∀ name, tables.symbols.idxOf? name = (dfa.symbol? name).map Fin.val
  accepting_eq : ∀ state : Nat, tables.accepting.contains state = dfa.acceptsAt state

variable {tables : Tables} {value : Json} {doc : Document}

/-- The name of a state is found back at its index. -/
theorem name_idxOf {name : String} (known : name ∈ tables.states) :
    tables.name (tables.states.idxOf name) = .ok name := by
  have inside := List.idxOf_lt_length_of_mem known
  rw [Tables.name, entryAt_eq_ok inside, List.getElem_idxOf]

/-- The tables that are built from a description without defect say what it says. -/
theorem faithful_of_ofJson (entries : Document.ofJson value = .ok doc) (sound : doc.WellFormed)
    (built : ofJson value = .ok tables) : tables.Faithful doc := by
  rw [ofJson_eq_ok entries sound] at built
  cases built
  refine {
    states_eq := rfl, symbols_eq := rfl, length_rows := List.length_map _, length_row := ?_,
    entry_lt := ?_, name_step := ?_,
    symbol_eq_some_iff := fun _ _ => idxOf?_eq_some_iff_getElem? sound.alphabet_nodup,
    symbol_eq_none_iff := fun _ => List.idxOf?_eq_none_iff,
    name_start := ⟨_, name_idxOf sound.startName_mem, sound.start_eq⟩,
    accepting_lt := ?_,
    mem_accepting_iff := mem_map_idxOf_iff sound.states_nodup sound.accept_mem }
  · intro row member
    obtain ⟨state, -, rfl⟩ := List.mem_map.mp member
    exact List.length_map _
  · intro row member entry entryMember
    obtain ⟨state, known, rfl⟩ := List.mem_map.mp member
    obtain ⟨symbol, listed, rfl⟩ := List.mem_map.mp entryMember
    obtain ⟨target, present, leads⟩ := sound.target_mem state known symbol listed
    rw [leads]
    exact List.idxOf_lt_length_of_mem present
  · intro state symbol
    obtain ⟨target, present, leads⟩ := sound.target_mem _ (List.getElem_mem state.isLt) _
      (List.getElem_mem symbol.isLt)
    refine ⟨doc.stateNames.idxOf target, target, ?_, name_idxOf present, leads⟩
    refine bind_eq_ok_iff.mpr ⟨_, entryAt_map_eq_ok _ state.isLt, ?_⟩
    refine (entryAt_map_eq_ok _ symbol.isLt).trans (congrArg Except.ok ?_)
    exact congrArg (fun target? => doc.stateNames.idxOf (target?.getD "")) leads
  · intro index member
    obtain ⟨name, accepted, rfl⟩ := List.mem_map.mp member
    exact List.idxOf_lt_length_of_mem (sound.accept_mem name accepted)

/-- The rows of tables with the right shape are those of the automaton that they represent. -/
theorem Represents.rows_eq (represents : tables.Represents dfa)
    (rows : tables.rows.length = dfa.states.length)
    (row : ∀ row ∈ tables.rows, row.length = dfa.alphabet.length) :
    tables.rows = dfa.table.toList.map fun row => row.toList.map Fin.val := by
  refine List.ext_getElem (by simp [rows]) fun state inside _ => List.ext_getElem ?_ ?_
  · simp [row _ (List.getElem_mem inside)]
  · intro symbol within _
    have listed : symbol < dfa.alphabet.length := row _ (List.getElem_mem inside) ▸ within
    have stepped := represents.step_eq ⟨state, rows ▸ inside⟩ ⟨symbol, listed⟩
    rw [step, entryAt_eq_ok inside] at stepped
    have entry := (entryAt_eq_ok within).symm.trans stepped
    simpa [next] using Except.ok.inj entry

/-- Look-ups in tables of the right shape give what the automaton answers by position, beyond the
ends of the lists as well. -/
theorem Represents.answersLike (represents : tables.Represents dfa)
    (rows : tables.rows.length = dfa.states.length)
    (row : ∀ row ∈ tables.rows, row.length = dfa.alphabet.length) : tables.AnswersLike dfa where
  rows_eq := represents.rows_eq rows row
  start_eq := represents.start_eq
  name_eq := by
    intro state
    rw [name, toOption_entryAt, nameAt?_natCast, represents.states_eq]
  step_eq := by
    intro state symbol
    rw [step, toOption_bind, toOption_entryAt, represents.rows_eq rows row, nextAt?,
      position?_natCast, position?_natCast]
    simp only [toOption_entryAt]
    by_cases inside : state < dfa.states.length
    · by_cases listed : symbol < dfa.alphabet.length
      · simp [inside, listed, next]
      · simp [inside, listed]
    · simp [inside]
  symbol_eq := represents.idxOf?_symbols
  accepting_eq := by
    intro state
    rw [Bool.eq_iff_iff, List.contains_iff_mem, represents.mem_accepting_iff, acceptsAt_natCast_iff]

end Tables

/-! ## Listing the accepting states -/

variable {value : Json} {doc : Document} {listed : List String}

/-- With other accepting states a description has the names of these. -/
theorem Document.acceptNames_withEntry (doc : Document) (listed : List String) :
    (doc.withEntry (.ofTexts listed) .acceptStates).acceptNames = listed :=
  Json.filterMap_text?_map_str listed

/-- With other states as accepting ones a description stays without defect. -/
theorem Document.defect?_withEntry_acceptStates (valid : doc.defect? = none)
    (known : ∀ name ∈ listed, name ∈ doc.stateNames) :
    (doc.withEntry (.ofTexts listed) .acceptStates).defect? = none := by
  obtain ⟨states, alphabet, transitions, start, -⟩ := defect?_eq_none_iff.mp valid
  refine defect?_eq_none_iff.mpr ⟨states, alphabet, transitions, start, ?_⟩
  refine acceptDefect?_eq_none_iff.mpr ⟨listed.map Json.str, rfl, fun state member => ?_⟩
  obtain ⟨name, present, rfl⟩ := List.mem_map.mp member
  change (Json.str name).Among doc.states.items
  rw [(wellFormed_of_defect? valid).states_eq]
  exact (Json.str_among_iff name doc.stateNames).mpr (known name present)

/-- Two listings of the same accepting states describe one automaton. -/
theorem ofDocument_withEntry_acceptStates (sound : doc.WellFormed)
    (same : ∀ name, name ∈ listed ↔ name ∈ doc.acceptNames)
    (otherSound : (doc.withEntry (.ofTexts listed) .acceptStates).WellFormed) :
    ofDocument _ otherSound = ofDocument doc sound := by
  -- The other entries are untouched, so the two automata can differ in this field only.
  have accepting : (ofDocument _ otherSound).accepting = (ofDocument doc sound).accepting := by
    refine congrArg Vector.ofFn (funext fun state => ?_)
    rw [Document.acceptNames_withEntry, Bool.eq_iff_iff, List.contains_iff_mem,
      List.contains_iff_mem]
    exact same _
  exact congrArg (fun accepting => { ofDocument doc sound with accepting }) accepting

/-- Listing the accepting states in another order, or some of them more than once, gives the same
automaton. -/
theorem ofJson_withMember_acceptStates {sound : doc.WellFormed}
    (entries : Document.ofJson value = .ok doc) (valid : doc.defect? = none)
    (same : ∀ name, name ∈ listed ↔ name ∈ doc.acceptNames) :
    ofJson (value.withMember "accept_states" (.ofTexts listed)) = .ok (ofDocument doc sound) := by
  have known : ∀ name ∈ listed, name ∈ doc.stateNames :=
    fun name member => sound.accept_mem name ((same name).mp member)
  have otherValid := Document.defect?_withEntry_acceptStates valid known
  have otherSound := Document.wellFormed_of_defect? otherValid
  have replaced := Document.ofJson_withMember entries .acceptStates (.ofTexts listed)
  exact ofJson_eq_ok_iff.mpr ⟨_, otherSound, replaced, otherValid,
    ofDocument_withEntry_acceptStates sound same otherSound⟩

/-- **Interning is faithful.** The tables of a description are built without failure and say what it
says. The automaton that is read from it answers by position what the tables hold, however the
accepting states are listed. -/
theorem interning_ofJson {value : Json} {dfa : Dfa} (read : ofJson value = .ok dfa) :
    ∃ doc tables, Document.ofJson value = .ok doc ∧ doc.WellFormed ∧
      Tables.ofJson value = .ok tables ∧ tables.Faithful doc ∧ tables.AnswersLike dfa ∧
      ∀ listed : List String, (∀ name, name ∈ listed ↔ name ∈ doc.acceptNames) →
        ofJson (value.withMember "accept_states" (.ofTexts listed)) = .ok dfa := by
  obtain ⟨tables, built, represents⟩ := Tables.represents_of_ofJson read
  obtain ⟨doc, sound, entries, valid, rfl⟩ := ofJson_eq_ok_iff.mp read
  have faithful := Tables.faithful_of_ofJson entries sound built
  exact ⟨doc, tables, entries, sound, built, faithful,
    represents.answersLike faithful.length_rows faithful.length_row,
    fun listed same => ofJson_withMember_acceptStates entries valid same⟩

/-- A description with a row for an unknown state, an entry for an unknown symbol and an accepting
state that is listed twice. -/
def latchDescription : Description where
  states := ["open", "shut", "stuck"]
  alphabet := ["push", "x"]
  transitions := .ofList [
    ("gone", .ofList [("push", "nowhere")]),
    ("shut", .ofList [("pull", "gone"), ("x", "open"), ("push", "shut")]),
    ("stuck", .ofList [("x", "stuck"), ("push", "stuck")]),
    ("open", .ofList [("push", "shut"), ("x", "open")])]
  startState := "shut"
  acceptStates := ["stuck", "open", "stuck"]

/-- The automaton of this description. -/
def latch : Dfa where
  states := ["open", "shut", "stuck"]
  alphabet := ["push", "x"]
  table := #v[#v[1, 0], #v[1, 0], #v[2, 2]]
  start := 1
  accepting := #v[true, false, true]
  states_nodup := by decide
  alphabet_nodup := by decide

/-- In the latch neither the order of the entries nor what is unknown shows in the tables, and each
accepting state needs to be listed once only. -/
theorem interning_latch :
    ofJson latchDescription.toJson = .ok latch ∧
      (∃ tables, Tables.ofJson latchDescription.toJson = .ok tables ∧
        tables.rows = [[1, 0], [1, 0], [2, 2]] ∧ tables.name tables.start = .ok "shut" ∧
        tables.symbols.idxOf? "x" = some 1 ∧ tables.symbols.idxOf? "pull" = none ∧
        2 ∈ tables.accepting ∧ 1 ∉ tables.accepting) ∧
      ofJson (latchDescription.toJson.withMember "accept_states" (.ofTexts ["open", "stuck"])) =
        .ok latch := by
  have read : ofJson latchDescription.toJson = .ok latch := rfl
  obtain ⟨doc, tables, entries, -, built, faithful, answers, relisted⟩ := interning_ofJson read
  cases entries
  refine ⟨read, ⟨tables, built, answers.rows_eq, ?_, ?_, ?_, ?_, ?_⟩, ?_⟩
  · obtain ⟨start, named, entry⟩ := faithful.name_start
    cases entry
    exact named
  · exact (faithful.symbol_eq_some_iff "x" 1).mpr (by decide)
  · exact (faithful.symbol_eq_none_iff "pull").mpr (by decide)
  · have listed : "stuck" ∈ ["stuck", "open", "stuck"] := by decide
    exact (faithful.mem_accepting_iff ⟨2, by decide⟩).mpr listed
  · have unlisted : "shut" ∉ ["stuck", "open", "stuck"] := by decide
    exact fun accepts => unlisted ((faithful.mem_accepting_iff ⟨1, by decide⟩).mp accepts)
  · refine relisted ["open", "stuck"] fun name => ?_
    change name ∈ ["open", "stuck"] ↔ name ∈ ["stuck", "open", "stuck"]
    simp only [List.mem_cons, List.not_mem_nil, or_false]
    tauto

end Dfa

end AutomataKit
