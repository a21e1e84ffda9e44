import AutomataKit.Proofs.Dfa.Checks
import AutomataKit.Proofs.Dfa.Validity

/-!
# The order of the checks

The first defect of an object is what the first check reports that fails, where the checks are made
in one fixed order, and its message is in the words of this check
(`Dfa.defect?_obj_eq_some_iff`). So when it lies in the row of a state, the earlier states have been
checked with all symbols, and this one up to the symbol that is named (`Dfa.ReachesSymbol`).
-/

namespace AutomataKit

namespace Dfa

variable {members : List (String × Json)}

/-! ## The checks of a document -/

namespace Document

variable {doc : Document}

/-- The elements of an entry that is there are those of its value. -/
theorem listed_eq {entry : Entry} {value : Json} (stored : members.lookup entry.key = some value) :
    listed members entry = value.items := by
  unfold listed
  rw [stored]
  rfl

/-- The defect on which reading the entries fails. -/
def failure? {α : Type} : Except Defect α → Option Defect
  | .error defect => some defect
  | .ok _ => none

/-- An entry that is asked for is there, or it is missing and nothing else is asked. -/
theorem scans_fetch {α : Type} {entry : Entry} {rest : List Check}
    {next : Json → Except Defect α}
    (onward : ∀ value, Scans members rest (failure? (next value))) :
    Scans members (.present entry :: rest)
      (failure? ((match members.lookup entry.key with
        | some value => Except.ok value
        | none => .error (Defect.missing entry)) >>= next)) := by
  cases stored : members.lookup entry.key with
  | some value => exact .next ⟨value, stored⟩ (onward value)
  | none =>
    refine .failed ?_ (.present entry)
    rintro ⟨value, other⟩
    cases stored.symm.trans other

/-- Reading the five entries looks for one after the other. -/
theorem scans_present (members : List (String × Json)) :
    Scans members
      [.present .states, .present .alphabet, .present .transitions, .present .startState,
        .present .acceptStates] (failure? (ofJson (.obj members))) :=
  scans_fetch fun _ => scans_fetch fun _ => scans_fetch fun _ => scans_fetch fun _ =>
    scans_fetch fun _ => .passed

/-- An entry for names is checked to be a list, and then for repetitions. -/
theorem scans_names (entry : Entry) {value : Json}
    (stored : members.lookup entry.key = some value) :
    Scans members [.isList entry, .distinct entry] (namesDefect? entry value) := by
  have elements := listed_eq stored
  cases value with
  | arr items =>
    refine .next ⟨items, stored⟩ ?_
    have passes : (Check.distinct entry).Passes members ↔ Json.Distinct items := by
      rw [Json.distinct_iff_equals]
      simp only [Check.Passes, elements, Json.items]
    change Scans members _ (if Json.Distinct items then none else some (.repeated entry))
    by_cases distinct : Json.Distinct items
    · rw [if_pos distinct]
      exact .next (passes.mpr distinct) .passed
    · rw [if_neg distinct]
      exact .failed (fun holds => distinct (passes.mp holds)) (.distinct entry)
  | null | bool value | int value | float value | str text | obj members =>
    refine .failed ?_ (.isList entry)
    rintro ⟨items, other⟩
    cases stored.symm.trans other

section

variable (transitions : members.lookup Entry.transitions.key = some doc.transitions)

include transitions

/-- A state has the row that the document gives for it. -/
theorem hasRow_iff (state : Json) (row : List (String × Json)) :
    HasRow members state row ↔ doc.row? state = some row := by
  unfold HasRow row?
  rw [transitions]
  constructor
  · rintro ⟨name, rows, rfl, same, found⟩
    rw [Option.some.inj same, Json.member?_str, Json.members, found]
  · intro found
    split at found
    · rename_i stored
      cases found
      obtain ⟨name, rfl, stored⟩ := Json.member?_eq_some_iff.mp stored
      cases value : doc.transitions with
      | obj rows =>
        rw [value] at stored
        exact ⟨name, rows, rfl, rfl, stored⟩
      | null | bool value | int value | float value | str text | arr items =>
        rw [value] at stored
        cases stored
    · cases found

/-- A row leads where its member for the symbol says. -/
theorem leadsTo_iff {state : Json} {row : List (String × Json)} (found : doc.row? state = some row)
    (symbol target : Json) :
    LeadsTo members state symbol target ↔ Json.member? row symbol = some target := by
  unfold LeadsTo
  simp only [hasRow_iff transitions, found, Json.member?_eq_some_iff]
  constructor
  · rintro ⟨name, _, rfl, ⟨⟩, stored⟩
    exact ⟨name, rfl, stored⟩
  · rintro ⟨name, rfl, stored⟩
    exact ⟨name, row, rfl, rfl, stored⟩

variable (states : members.lookup Entry.states.key = some doc.states)

include states

omit transitions in
/-- The states are the names among the elements of their entry. -/
theorem isState_iff (value : Json) : IsState members value ↔ value.Among doc.states.items := by
  rw [Json.among_iff_equals, IsState, listed_eq states]

/-- A symbol is checked for a target, and the target for being a state. -/
theorem scans_symbol {state : Json} {row : List (String × Json)} (found : doc.row? state = some row)
    (symbol : Json) :
    Scans members (symbolChecks state symbol) (doc.targetDefect? state row symbol) := by
  have leads := leadsTo_iff transitions found symbol
  unfold targetDefect?
  cases stored : Json.member? row symbol with
  | none =>
    refine .failed ?_ (.target state symbol)
    rintro ⟨target, other⟩
    cases stored.symm.trans ((leads target).mp other)
  | some target =>
    have here := (leads target).mpr stored
    refine .next ⟨target, here⟩ ?_
    change Scans members _
      (if target.Among doc.states.items then none else some (.unknownTarget state symbol target))
    by_cases among : target.Among doc.states.items
    · rw [if_pos among]
      exact .next ⟨target, here, (isState_iff states target).mpr among⟩ .passed
    · rw [if_neg among]
      refine .failed ?_ (.known here)
      rintro ⟨other, elsewhere, isState⟩
      cases stored.symm.trans ((leads other).mp elsewhere)
      exact among ((isState_iff states target).mp isState)

/-- A state is checked for a row, and the row symbol by symbol. -/
theorem scans_state (alphabet : members.lookup Entry.alphabet.key = some doc.alphabet)
    (state : Json) : Scans members (stateChecks members state) (doc.rowDefect? state) := by
  unfold rowDefect? stateChecks
  rw [listed_eq alphabet]
  cases found : doc.row? state with
  | none =>
    refine .failed ?_ (.row state)
    rintro ⟨row, other⟩
    cases found.symm.trans ((hasRow_iff transitions state row).mp other)
  | some row =>
    refine .next ⟨row, (hasRow_iff transitions state row).mpr found⟩ ?_
    exact Scans.flatMap fun symbol _ => scans_symbol transitions states found symbol

/-- The transitions are checked for being an object, and then state by state. -/
theorem scans_transitions (alphabet : members.lookup Entry.alphabet.key = some doc.alphabet) :
    Scans members (.rows :: (listed members .states).flatMap (stateChecks members))
      doc.transitionsDefect? := by
  have states_eq := listed_eq states
  unfold transitionsDefect?
  cases value : doc.transitions with
  | obj rows =>
    refine .next ⟨rows, value ▸ transitions⟩ ?_
    rw [states_eq]
    exact Scans.flatMap fun state _ => scans_state transitions states alphabet state
  | null | bool value | int value | float value | str text | arr items =>
    refine .failed ?_ .rows
    rintro ⟨rows, other⟩
    rw [transitions, value] at other
    cases other

omit transitions in
/-- The start state is checked for being a state. -/
theorem scans_start (start : members.lookup Entry.startState.key = some doc.start) :
    Scans members [.start] doc.startDefect? := by
  unfold startDefect?
  by_cases among : doc.start.Among doc.states.items
  · rw [if_pos among]
    exact .next ⟨doc.start, start, (isState_iff states _).mpr among⟩ .passed
  · rw [if_neg among]
    refine .failed ?_ .start
    rintro ⟨value, other, isState⟩
    cases start.symm.trans other
    exact among ((isState_iff states _).mp isState)

omit transitions in
/-- The accepting states are checked one by one for being states. -/
theorem scans_acceptStates (items : List Json) :
    Scans members (items.map .accept)
      ((items.find? fun state => ¬ state.Among doc.states.items).map .unknownAccept) := by
  induction items with
  | nil => exact .passed
  | cons state rest ih =>
    rw [List.map_cons, List.find?_cons]
    by_cases among : state.Among doc.states.items
    · simp only [among, not_true_eq_false, decide_false]
      exact .next ((isState_iff states state).mpr among) ih
    · simp only [among, not_false_eq_true, decide_true]
      exact .failed (fun isState => among ((isState_iff states state).mp isState)) (.accept state)

omit transitions in
/-- The entry of the accepting states is checked for being a list, and then its elements. -/
theorem scans_accept (accept : members.lookup Entry.acceptStates.key = some doc.accept) :
    Scans members (.isList .acceptStates :: (listed members .acceptStates).map .accept)
      doc.acceptDefect? := by
  have elements := listed_eq accept
  unfold acceptDefect?
  cases value : doc.accept with
  | arr items =>
    rw [value] at elements accept
    rw [elements]
    exact .next ⟨items, accept⟩ (scans_acceptStates states items)
  | null | bool value | int value | float value | str text | obj members =>
    refine .failed ?_ (.isList _)
    rintro ⟨items, other⟩
    rw [accept, value] at other
    cases other

end

/-- **All checks of an object.** They find its first defect. -/
theorem scans_checks (members : List (String × Json)) :
    Scans members (checks members) (Dfa.defect? (.obj members)) := by
  have present := scans_present members
  unfold Dfa.defect?
  cases entries : ofJson (.obj members) with
  | error defect =>
    rw [entries] at present
    change Scans members _ (some defect <|> none)
    exact present.append nofun
  | ok doc =>
    rw [entries] at present
    obtain ⟨_, ⟨⟩, states, alphabet, transitions, start, accept⟩ := ofJson_eq_ok_iff.mp entries
    exact present.append fun _ => (scans_names .states states).append fun _ =>
      (scans_names .alphabet alphabet).append fun _ =>
      (scans_transitions transitions states alphabet).append fun _ =>
      (scans_start states start).append fun _ => scans_accept states accept

end Document

/-! ## What is reported -/

section

variable (members)

/-- The checks have come to the row of the state at a place: all checks of the entries and of the
lists of names pass, and all those of the states before. -/
structure ReachesState (place : Nat) (state : Json) : Prop where
  state_at : (listed members .states)[place]? = some state
  opening : ∀ check ∈ openingChecks, check.Passes members
  earlier : ∀ check ∈ ((listed members .states).take place).flatMap (stateChecks members),
    check.Passes members

/-- The checks have come to the symbol at a place in the row of a state: those of the symbols before
pass as well. -/
structure ReachesSymbol (place column : Nat) (state symbol : Json) : Prop extends
    ReachesState members place state where
  row : ∃ row, HasRow members state row
  symbol_at : (listed members .alphabet)[column]? = some symbol
  between : ∀ check ∈ ((listed members .alphabet).take column).flatMap (symbolChecks state),
    check.Passes members

end

/-- The defect lies in the transitions from a state. -/
inductive Defect.InRow : Defect → Json → Prop
  | noRow (state : Json) : InRow (.noRow state) state
  | noTarget (state symbol : Json) : InRow (.noTarget state symbol) state
  | unknownTarget (state symbol target : Json) : InRow (.unknownTarget state symbol target) state

/-- The defect lies in the transition from a state on a symbol. -/
inductive Defect.AtSymbol : Defect → Json → Json → Prop
  | noTarget (state symbol : Json) : AtSymbol (.noTarget state symbol) state symbol
  | unknownTarget (state symbol target : Json) :
      AtSymbol (.unknownTarget state symbol target) state symbol

/-- A defect at a symbol lies in the row of its state. -/
theorem Defect.AtSymbol.inRow {defect : Defect} {state symbol : Json}
    (here : defect.AtSymbol state symbol) : defect.InRow state := by
  cases here <;> constructor

/-- A defect in the row of a state is reported by a check of this state. -/
theorem Check.Reports.of_inRow {check : Check} {defect : Defect} {state : Json}
    (reports : check.Reports members defect) (inRow : defect.InRow state) :
    check = .row state ∨ ∃ symbol, check ∈ symbolChecks state symbol := by
  cases inRow <;> cases reports <;> simp [symbolChecks]

/-- A defect at a symbol is reported by a check of this symbol. -/
theorem Check.Reports.of_atSymbol {check : Check} {defect : Defect} {state symbol : Json}
    (reports : check.Reports members defect) (here : defect.AtSymbol state symbol) :
    check ∈ symbolChecks state symbol := by
  cases here <;> cases reports <;> simp [symbolChecks]

/-- A check belongs to one state and one symbol. -/
theorem eq_of_mem_symbolChecks {check : Check} {state symbol other letter : Json}
    (first : check ∈ symbolChecks state symbol) (second : check ∈ symbolChecks other letter) :
    state = other ∧ symbol = letter := by
  simp only [symbolChecks, List.mem_cons, List.not_mem_nil, or_false] at first second
  rcases first with rfl | rfl <;> simpa using second

namespace Scans

variable {defect : Defect} {state symbol : Json}

/-- A defect in the row of a state is found once the checks have come to this row. -/
theorem exists_reachesState (inRow : defect.InRow state)
    (scans : Scans members (checks members) (some defect)) :
    ∃ place, ReachesState members place state ∧
      Scans members (stateChecks members state) (some defect) := by
  have reporting {list : List Check} (found : Scans members list (some defect)) :
      .row state ∈ list ∨ ∃ symbol, ∃ check ∈ symbolChecks state symbol, check ∈ list := by
    obtain ⟨check, member, -, reports⟩ := found.exists_reports
    rcases reports.of_inRow inRow with rfl | ⟨symbol, here⟩
    · exact .inl member
    · exact .inr ⟨symbol, check, here, member⟩
  rcases scans.of_append with upToStates | ⟨-, closing⟩
  · rcases upToStates.of_append with opening | ⟨opening, rows⟩
    · have reporting := reporting opening
      simp [openingChecks, symbolChecks] at reporting
    · obtain ⟨place, other, found, earlier, here⟩ := rows.of_flatMap
      have same : other = state := by
        rcases reporting here with row | ⟨symbol, check, checked, member⟩
        · simpa [stateChecks, symbolChecks, eq_comm] using row
        · rcases List.mem_cons.mp member with rfl | member
          · simp [symbolChecks] at checked
          · obtain ⟨letter, -, member⟩ := List.mem_flatMap.mp member
            exact (eq_of_mem_symbolChecks member checked).1
      subst same
      exact ⟨place, ⟨found, opening, earlier⟩, here⟩
  · have reporting := reporting closing
    simp [symbolChecks] at reporting

/-- A defect at a symbol is found once the checks have come to this symbol. -/
theorem exists_reachesSymbol (here : defect.AtSymbol state symbol)
    (scans : Scans members (checks members) (some defect)) :
    ∃ place column, ReachesSymbol members place column state symbol := by
  obtain ⟨place, reached, found⟩ := scans.exists_reachesState here.inRow
  cases found with
  | failed _ reports => cases reports; cases here
  | next row onward =>
    obtain ⟨column, letter, stands, between, found⟩ := onward.of_flatMap
    obtain ⟨check, member, -, reports⟩ := found.exists_reports
    obtain ⟨-, rfl⟩ := eq_of_mem_symbolChecks member (reports.of_atSymbol here)
    exact ⟨place, column, reached, row, stands, between⟩

end Scans

/-- **The first failing check is reported.** The defect of an object is what the first check that
fails reports, and its message is in the words of this check; there is none when all checks pass.
When it lies in the row of a state, the checks have come to this row, and the state has none; when
it lies at a symbol, they have come to this symbol, and the row has no target for it or the target
named is no state. -/
theorem defect?_obj_eq_some_iff (members : List (String × Json)) :
    (∀ defect, defect? (.obj members) = some defect ↔
        ∃ before check after, checks members = before ++ check :: after ∧
          (∀ earlier ∈ before, earlier.Passes members) ∧ ¬ check.Passes members ∧
          check.Reports members defect) ∧
      (∀ text, (defect? (.obj members)).map Defect.message = some text ↔
        ∃ before check after, checks members = before ++ check :: after ∧
          (∀ earlier ∈ before, earlier.Passes members) ∧ ¬ check.Passes members ∧
          check.Says members text) ∧
      (valid (.obj members) = true ↔ ∀ check ∈ checks members, check.Passes members) ∧
      (∀ state, defect? (.obj members) = some (.noRow state) →
        (∃ place, ReachesState members place state) ∧ ¬ ∃ row, HasRow members state row) ∧
      (∀ state symbol, defect? (.obj members) = some (.noTarget state symbol) →
        (∃ place column, ReachesSymbol members place column state symbol) ∧
          ¬ ∃ target, LeadsTo members state symbol target) ∧
      ∀ state symbol target, defect? (.obj members) = some (.unknownTarget state symbol target) →
        (∃ place column, ReachesSymbol members place column state symbol) ∧
          LeadsTo members state symbol target ∧ ¬ IsState members target := by
  have scans := Document.scans_checks members
  have reported (defect : Defect) : defect? (.obj members) = some defect ↔
      Scans members (checks members) (some defect) :=
    ⟨fun found => found ▸ scans, fun found => scans.unique found⟩
  refine ⟨fun defect => ?_, fun text => ?_, ?_, ?_, ?_, ?_⟩
  · rw [← Scans.some_iff]
    exact reported defect
  · simp only [Option.map_eq_some_iff, reported, Check.worded_iff]
    constructor
    · rintro ⟨defect, found, worded⟩
      obtain ⟨before, check, after, split, earlier, fails, reports⟩ := Scans.some_iff.mp found
      exact ⟨before, check, after, split, earlier, fails, defect, reports, worded⟩
    · rintro ⟨before, check, after, split, earlier, fails, defect, reports, worded⟩
      exact ⟨defect, Scans.some_iff.mpr ⟨before, check, after, split, earlier, fails, reports⟩,
        worded⟩
  · rw [← Scans.none_iff, valid, Option.isNone_iff_eq_none]
    exact ⟨fun found => found ▸ scans, fun found => scans.unique found⟩
  · intro state found
    rw [found] at scans
    obtain ⟨place, reached, -⟩ := scans.exists_reachesState (.noRow state)
    obtain ⟨check, -, fails, reports⟩ := scans.exists_reports
    cases reports
    exact ⟨⟨place, reached⟩, fails⟩
  · intro state symbol found
    rw [found] at scans
    obtain ⟨check, -, fails, reports⟩ := scans.exists_reports
    cases reports
    exact ⟨scans.exists_reachesSymbol (.noTarget state symbol), fails⟩
  · intro state symbol target found
    rw [found] at scans
    obtain ⟨check, -, fails, reports⟩ := scans.exists_reports
    cases reports with
    | known leads =>
      exact ⟨scans.exists_reachesSymbol (.unknownTarget state symbol target), leads,
        fun isState => fails ⟨target, leads, isState⟩⟩

/-- An object with many defects: a state that is no string, a row that leads out of the states, an
unknown start state, and accepting states that are no list. -/
def tangledMembers : List (String × Json) :=
  [("start_state", .str "nowhere"), ("accept_states", .null),
    ("alphabet", .ofTexts ["a", "b"]), ("states", .arr [.str "p", .str "q", .null]),
    ("transitions", .obj [
      ("q", .obj [("b", .str "r"), ("a", .str "p")]),
      ("p", .obj [("a", .str "q"), ("b", .null)])])]

/-- The row of the first state is sound, with null as a target because null is among the states. So
the first failing check is that of the second state and its second symbol, and these are named. -/
theorem defect?_tangledMembers :
    defect? (.obj tangledMembers) = some (.unknownTarget (.str "q") (.str "b") (.str "r")) ∧
      (defect? (.obj tangledMembers)).map Defect.message =
        some "Transition from q on 'b' targets unknown state r" ∧
      (∃ place column, ReachesSymbol tangledMembers place column (.str "q") (.str "b")) ∧
      LeadsTo tangledMembers (.str "q") (.str "b") (.str "r") ∧
      ∃ before after, checks tangledMembers =
          before ++ .known (.str "q") (.str "b") :: after ∧
        ∀ earlier ∈ before, earlier.Passes tangledMembers := by
  obtain ⟨first, worded, -, -, -, unknown⟩ := defect?_obj_eq_some_iff tangledMembers
  have found : defect? (.obj tangledMembers) =
      some (.unknownTarget (.str "q") (.str "b") (.str "r")) := rfl
  obtain ⟨reaches, leads, -⟩ := unknown _ _ _ found
  obtain ⟨before, check, after, split, earlier, fails, reports⟩ := (first _).mp found
  cases reports
  have report : (Check.known (.str "q") (.str "b")).Says tangledMembers
      "Transition from q on 'b' targets unknown state r" :=
    .known (.text "q") (.text "b") leads (.text "r")
  exact ⟨found, (worded _).mpr ⟨before, _, after, split, earlier, fails, report⟩, reaches, leads,
    before, after, split, earlier⟩

end Dfa

end AutomataKit
